import MarketDesk.Demo
import MarketDesk.History.Cells
import MarketDesk.Proofs.Calendar.Pattern
import MarketDesk.Proofs.Decimal.Field
import MarketDesk.Proofs.Results
import MarketDesk.Proofs.Settings.Keeping

/-!
# The cells of an order

Whether an order has its ten cells depends on the date pattern and on the room for its price and its
total (`Order.painted_iff`); its moment and everything else about it have a text in any case. With
the default settings there is room, and what remains is that the pattern is well-formed. Settings
are accepted with any pattern that is not blank, so that some are accepted with which no order can
be painted (`Settings.paints_iff_wellFormed`).
-/

namespace MarketDesk

namespace Order

variable {settings : HistorySettings} {o : Order}

/-- **The order can be painted**: there is a text for each of the ten columns. -/
def Painted (settings : HistorySettings) (o : Order) : Prop :=
  ∃ cells, o.cells? settings = some cells ∧ cells.length = 10

theorem totalText?_isSome {places : Nat} :
    (o.totalText? places).isSome = (o.total.fixed? places).isSome := by
  rw [totalText?]
  cases o.total.fixed? places with
  | none => rfl
  | some total =>
    rw [Option.bind_eq_bind, Option.bind_some]
    split <;> rfl

/-- A row can be painted just if the pattern of its date is well formed and its price and its total
fit the field. -/
theorem painted_iff : o.Painted settings ↔ Pattern.WellFormed settings.datePattern.toList ∧
    (o.price.fixed? settings.priceDigits).isSome ∧
    (o.total.fixed? settings.totalDigits).isSome := by
  have hall : o.Painted settings ↔ ∀ c ∈ HistoryColumn.all, (o.cell? settings c).isSome :=
    exists_mapM_iff
  simp only [hall, HistoryColumn.all, List.forall_mem_cons, List.not_mem_nil, false_imp_iff,
    implies_true, cell?, Instant.format?, Option.isSome_map, Option.isSome_some, totalText?_isSome,
    Pattern.ofText?_isSome_iff, and_true, true_and]

end Order

namespace Settings

/-- The settings with a date pattern and otherwise the default settings of the history. -/
def dating (s : Settings) (pattern : String) : Settings :=
  { s with history := { datePattern := pattern } }

/-- **Accepted and usable patterns.** Settings are accepted with every date pattern that is not
blank, and with those patterns that are well-formed, and no others, all orders can be painted. -/
theorem paints_iff_wellFormed (s : Settings) (pattern : String) :
    ((s.dating pattern).IsValid ↔ 0 < s.book.maxLevels ∧ s.logging.level?.isSome ∧
      Text.isBlankText pattern = false) ∧
    ∀ o : Order, o.Painted (s.dating pattern).history ↔ Pattern.WellFormed pattern.toList := by
  refine ⟨isValid_iff, fun o => ?_⟩
  have hprice : (o.price.fixed? 2).isSome := o.price.fixed?_isSome_of_le_two (Nat.le_refl 2)
  have htotal : (o.total.fixed? 2).isSome := o.total.fixed?_isSome_of_le_two (Nat.le_refl 2)
  rw [Order.painted_iff]
  exact and_iff_left ⟨hprice, htotal⟩

/-- No letter `Q` stands for anything. -/
theorem accepts_unknown_letter : (({} : Settings).dating "%Q").IsValid ∧
    (Demo.order 0).cells? (({} : Settings).dating "%Q").history = none := by
  decide +kernel

end Settings

end MarketDesk
