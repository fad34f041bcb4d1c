import MarketDesk.History.Cells
import MarketDesk.Proofs.Calendar.Rfc3339
import MarketDesk.Proofs.Decimal.Text
import MarketDesk.Proofs.Decimal.Value
import MarketDesk.Proofs.Wire.Shape

/-!
# Orders are read as they were written

An order that was read is written so that reading it again gives the same order
(`Order.wire_steady`). Not every order comes back like that: a kind or a state without a meaning of
its own has to be one that was read (`Terms.KeepsUnknown.reread`), and this is what reading keeps
(`Order.Draft.Spelled`).
-/

namespace MarketDesk

open Wire (Value)

/-! ## Terms -/

/-- Terms of one sort: how a text is read, how a term is written, and where an order has its own.
Texts are compared in a folded form, and those for terms with a meaning of their own are known. -/
structure Terms (T : Type) where
  read : String → T
  text : T → String
  fold : String → String
  spellings : List String
  known : List T
  term : Order → T
  column : HistoryColumn
  member : String

namespace Terms

variable {T : Type} {k : Terms T} {s : String}

/-- **Unknown texts are kept.** A text is read as a known term, or it stays with its term. An order
shows and writes the text of its term. -/
structure KeepsUnknown (k : Terms T) : Prop where
  reads : ∀ s, k.fold s ∈ k.spellings ∧ k.read s ∈ k.known ∨ k.text (k.read s) = s
  known : ∀ t ∈ k.known, k.read (k.text t) = t
  shows : ∀ o settings, Order.cell? settings o k.column = some (k.text (k.term o))
  writes : ∀ o, (Order.toValue o).get? k.member = some (.text (k.text (k.term o)))

/-- **A text for a term** is read as a term that is written as a text for it; an unknown one is
shown and written as the text that it was read from. -/
structure Steady (k : Terms T) (s : String) : Prop where
  again : k.read (k.text (k.read s)) = k.read s
  unknown : k.fold s ∉ k.spellings → k.text (k.read s) = s ∧ ∀ o, k.term o = k.read s →
    (∀ settings, Order.cell? settings o k.column = some s) ∧
      (Order.toValue o).get? k.member = some (.text s)

/-- A term that was read is read again when it is written. -/
theorem KeepsUnknown.reread (h : k.KeepsUnknown) {t : T} (ht : ∃ s, t = k.read s) :
    k.read (k.text t) = t := by
  obtain ⟨s, rfl⟩ := ht
  rcases h.reads s with ⟨-, hknown⟩ | hkept
  · exact h.known _ hknown
  · rw [hkept]

theorem KeepsUnknown.steady (h : k.KeepsUnknown) (s : String) : k.Steady s where
  again := h.reread ⟨s, rfl⟩
  unknown hs := by
    have hkept : k.text (k.read s) = s := (h.reads s).resolve_left fun hknown => hs hknown.1
    refine ⟨hkept, fun o ho => ⟨fun settings => ?_, ?_⟩⟩
    · rw [h.shows, ho, hkept]
    · rw [h.writes, ho, hkept]

end Terms

/-- The states of orders. -/
def OrderStatus.terms : Terms OrderStatus where
  read := ofText
  text := text
  fold := Text.folded
  spellings := ["open", "partial", "partially filled", "partially_filled", "filled", "cancelled",
    "canceled", "rejected"]
  known := [.live, .partlyFilled, .filled, .cancelled, .rejected]
  term := Order.status
  column := .status
  member := "status"

/-- The kinds of orders. Only the letters and digits of a text count. -/
def OrderType.terms : Terms OrderType where
  read := ofText
  text := text
  fold := Text.squeezed
  spellings := ["limit", "market", "stoplimit", "stopmarket"]
  known := [.limit, .market, .stopLimit, .stopMarket]
  term := Order.type
  column := .type
  member := "order_type"

theorem OrderStatus.keepsUnknown : terms.KeepsUnknown where
  reads s := by
    dsimp only [terms]
    unfold ofText
    split
    case h_9 => exact .inr rfl
    all_goals
      rename_i heq
      exact .inl ⟨by simp [heq], by decide⟩
  known := by decide
  shows o settings := rfl
  writes o := rfl

theorem OrderType.keepsUnknown : terms.KeepsUnknown where
  reads s := by
    dsimp only [terms]
    unfold ofText
    split
    case h_5 => exact .inr rfl
    all_goals
      rename_i heq
      exact .inl ⟨by simp [heq], by decide⟩
  known := by decide
  shows o settings := rfl
  writes o := rfl

/-! ## Reading -/

namespace Order

variable {v : Value} {o : Order}

namespace Draft

/-- Kind and state of the draft, where they have been read, were read from a text. -/
structure Spelled (d : Draft) : Prop where
  type : ∀ t, d.type = some t → ∃ s, t = OrderType.ofText s
  status : ∀ t, d.status = some t → ∃ s, t = OrderStatus.ofText s

/-- Each field of a draft is put there from a text of its own or leaves kind and state alone. -/
theorem spelled_put : ∀ f ∈ shape.fields, ∀ {v : Value} {d d' : Draft},
    f.2 v d = .ok d' → d.Spelled → d'.Spelled := by
  simp only [shape, List.forall_mem_cons]
  refine ⟨?id, ?symbol, ?time, ?type, ?side, ?price, ?amount, ?filledPercent, ?total, ?status,
    nofun⟩
  all_goals
    intro v d d' h hd
    obtain ⟨s, -, hput⟩ := bind_eq_ok_iff.mp h
    obtain rfl := Except.ok.inj hput
  case type => exact ⟨fun t ht => ⟨s, (Option.some.inj ht).symm⟩, hd.status⟩
  case status => exact ⟨hd.type, fun t ht => ⟨s, (Option.some.inj ht).symm⟩⟩
  -- Every other field leaves both as they are.
  all_goals exact ⟨hd.type, hd.status⟩

/-- The draft with all fields of an order. -/
def full (o : Order) : Draft where
  id := o.id
  symbol := o.symbol
  time := o.time
  type := o.type
  side := o.side
  price := o.price
  amount := o.amount
  filledPercent := o.filledPercent
  total := o.total
  status := o.status

theorem finish_full (o : Order) : (full o).finish = .ok o := rfl

theorem eq_full_of_finish {d : Draft} (h : d.finish = .ok o) : d = full o := by
  simp only [finish, bind_eq_ok_iff, Wire.require_eq_ok_iff] at h
  obtain ⟨id, hid, symbol, hsymbol, time, htime, type, htype, side, hside, price, hprice, amount,
    hamount, filledPercent, hfilled, total, htotal, status, hstatus, ho⟩ := h
  obtain rfl := Except.ok.inj ho
  cases d
  simp_all [full]

end Draft

theorem spelled_of_ofValue (h : ofValue v = .ok o) :
    (∃ s, o.type = OrderType.ofText s) ∧ ∃ s, o.status = OrderStatus.ofText s := by
  obtain ⟨d, hread, hfinish⟩ := bind_eq_ok_iff.mp h
  have hspelled : d.Spelled := Wire.Shape.read_keeps Draft.spelled_put hread ⟨nofun, nofun⟩
  obtain rfl := Draft.eq_full_of_finish hfinish
  exact ⟨hspelled.type _ rfl, hspelled.status _ rfl⟩

theorem asDecimal_toText (a : Decimal) : Wire.asDecimal (.text a.toText) = .ok a.reread := by
  rw [Wire.asDecimal, Decimal.ofText?_toText]

theorem readTime_toText (t : Instant) : readTime (.text (Timestamp.toText t)) = .ok t := by
  rw [readTime, Timestamp.ofText_toText]

theorem readSide_name (s : Side) : readSide (.text s.name) = .ok s := by
  cases s <;> rfl

/-- The order as it is when it was written and read. -/
def reread (o : Order) : Order :=
  { o with
    price := o.price.reread
    amount := o.amount.reread
    filledPercent := o.filledPercent.reread
    total := o.total.reread }

theorem read_toValue (htype : OrderType.ofText o.type.text = o.type)
    (hstatus : OrderStatus.ofText o.status.text = o.status) :
    shape.read .message {} o.toValue = .ok (Draft.full o.reread) := by
  simp [toValue, Wire.Shape.read, Wire.Shape.readMembers, shape, List.lookup_cons, Wire.asText,
    readTime_toText, readSide_name, asDecimal_toText, htype, hstatus, ok_bind, pure, Except.pure,
    Draft.full, reread]

/-- The same order; each decimal has kept its value and its scale. -/
structure Kept (o o' : Order) : Prop where
  id : o'.id = o.id
  symbol : o'.symbol = o.symbol
  time : o'.time = o.time
  type : o'.type = o.type
  side : o'.side = o.side
  price : o'.price.value = o.price.value ∧ o'.price.scale = o.price.scale
  amount : o'.amount.value = o.amount.value ∧ o'.amount.scale = o.amount.scale
  filledPercent : o'.filledPercent.value = o.filledPercent.value ∧
    o'.filledPercent.scale = o.filledPercent.scale
  total : o'.total.value = o.total.value ∧ o'.total.scale = o.total.scale
  status : o'.status = o.status

theorem kept_reread (o : Order) : o.Kept o.reread := by
  have hdecimal (a : Decimal) : a.reread.value = a.value ∧ a.reread.scale = a.scale := by
    refine ⟨?_, rfl⟩
    rw [Decimal.value, a.coefficient_reread]
    rfl
  refine ⟨rfl, rfl, rfl, rfl, rfl, ?_, ?_, ?_, ?_, rfl⟩
  all_goals exact hdecimal _

end Order

/-- **The written form of orders is steady.** Whatever value an order was read from, writing it and
reading that gives the same order in every field, with the scale of every decimal. Each text for a
state or a kind, known or not, leads to the same one again. -/
theorem Order.wire_steady :
    (∀ v o, ofValue v = .ok o → ∃ o', ofValue o.toValue = .ok o' ∧ o.Kept o') ∧
      (∀ s, OrderStatus.terms.Steady s) ∧ ∀ s, OrderType.terms.Steady s := by
  refine ⟨fun v o h => ?_, OrderStatus.keepsUnknown.steady, OrderType.keepsUnknown.steady⟩
  obtain ⟨htype, hstatus⟩ := spelled_of_ofValue h
  have htype' := OrderType.keepsUnknown.reread (t := o.type)
  have hstatus' := OrderStatus.keepsUnknown.reread (t := o.status)
  dsimp only [OrderType.terms, OrderStatus.terms] at htype' hstatus'
  refine ⟨o.reread, ?_, o.kept_reread⟩
  rw [ofValue, read_toValue (htype' htype) (hstatus' hstatus), ok_bind, Draft.finish_full]

/-- A state that is not known, a leap second and a percentage so small that nothing but its sign is
left. -/
theorem Order.wire_steady_odd_spellings :
    let v : Value := .fields [("status", .text " Expired "), ("order_id", .text "77"),
      ("side", .text "SELL"), ("symbol", .text "BTC/USDT"), ("order_type", .text "stop_LIMIT"),
      ("timestamp", .text "2025-1-26 17:30:60.5+0200"), ("price", .text "42_000.50"),
      ("amount", .int 3), ("filled_percent", .text "-0.4e-28"), ("total", .text "1e3")]
    ∃ o o', ofValue v = .ok o ∧ o.price.scale = 2 ∧ o.filledPercent.negative = true ∧
      o.time.nano = 1500000000 ∧ o.status.text = " Expired " ∧
      ofValue o.toValue = .ok o' ∧ o.Kept o' := by
  intro v
  let o : Order := {
    id := "77", symbol := "BTC/USDT"
    type := .stopLimit, side := .sell, status := .other " Expired "
    time := { date := ⟨2025, 1, 26, by decide⟩, second := 55859, nano := 1500000000 }
    price := .ofParts 4200050 2
    amount := .ofParts 3 0
    filledPercent := { negative := true, magnitude := 0, scale := 28 }
    total := .ofParts 1000 0 }
  have hread : ofValue v = .ok o := rfl
  obtain ⟨o', ho', hkept⟩ := wire_steady.1 v o hread
  exact ⟨o, o', hread, rfl, rfl, rfl, rfl, ho', hkept⟩

end MarketDesk
