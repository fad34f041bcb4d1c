import MarketDesk.Proofs.Book.Trace

/-!
# Refused updates

Two lists of levels are refused for their first negative size (`Level.Rejects`), wherever it stands
and however many levels the book shows (`Snapshot.ofLevels_eq_error_iff`). An update is refused just
for such a cause, and a book goes on from a refused one as if it had not been asked
(`Book.refused_iff_rejects`).
-/

namespace MarketDesk

namespace Level

/-- The first level of a list whose size is below zero. -/
def FirstNegative (levels : List Level) (l : Level) : Prop :=
  ∃ front back, levels = front ++ l :: back ∧ AllValid front ∧ l.size < .zero

/-- **The cause of a refusal**: the first ask with a size below zero or, if no ask has one, the
first bid. -/
inductive Rejects (asks bids : List Level) : PanelError → Prop
  | ask {l : Level} : FirstNegative asks l → Rejects asks bids (.negativeSize l.price)
  | bid {l : Level} : AllValid asks → FirstNegative bids l →
    Rejects asks bids (.negativeSize l.price)

variable {asks bids levels : List Level} {l : Level} {e : PanelError}

/-- The check stops at the first negative size of a list. -/
theorem find?_isNegative_eq_some_iff :
    levels.find? (fun l => l.size.isNegative) = some l ↔ FirstNegative levels l := by
  rw [List.find?_eq_some_iff_append, Decimal.isNegative_iff_lt_zero]
  constructor
  · rintro ⟨hneg, front, back, rfl, hfront⟩
    refine ⟨front, back, rfl, fun x hx => ?_, hneg⟩
    exact Decimal.isNegative_eq_false_iff.mp (by simpa using hfront x hx)
  · rintro ⟨front, back, rfl, hfront, hneg⟩
    refine ⟨hneg, front, back, rfl, fun x hx => ?_⟩
    simp [Decimal.isNegative_eq_false_iff.mpr (hfront x hx)]

theorem allValid_or_firstNegative (levels : List Level) :
    AllValid levels ∨ ∃ l, FirstNegative levels l := by
  cases h : levels.find? (fun l => l.size.isNegative) with
  | none => exact .inl (find?_isNegative_eq_none_iff.mp h)
  | some l => exact .inr ⟨l, find?_isNegative_eq_some_iff.mp h⟩

theorem not_allValid_iff : ¬ AllValid levels ↔ ∃ l ∈ levels, l.size < .zero := by
  simp only [AllValid, not_forall, exists_prop, Decimal.not_zero_le_iff]

theorem FirstNegative.not_allValid (h : FirstNegative levels l) : ¬ AllValid levels := by
  obtain ⟨front, back, rfl, -, hneg⟩ := h
  exact not_allValid_iff.mpr ⟨l, by simp, hneg⟩

/-- There is a cause just if some size is below zero, on either side and wherever it stands. -/
theorem exists_rejects_iff :
    (∃ e, Rejects asks bids e) ↔ ∃ l, (l ∈ asks ∨ l ∈ bids) ∧ l.size < .zero := by
  simp only [or_and_right, exists_or, ← not_allValid_iff]
  constructor
  · rintro ⟨-, h | ⟨-, h⟩⟩
    · exact .inl h.not_allValid
    · exact .inr h.not_allValid
  · intro h
    rcases allValid_or_firstNegative asks with hasks | ⟨a, ha⟩
    · rcases allValid_or_firstNegative bids with hbids | ⟨b, hb⟩
      · exact absurd h (not_or.mpr ⟨not_not.mpr hasks, not_not.mpr hbids⟩)
      · exact ⟨_, .bid hasks hb⟩
    · exact ⟨_, .ask ha⟩

/-- A level that is not in the book has no size below zero. -/
theorem find?_isNegative_standing (levels : List Level) :
    (standing levels).find? (fun l => l.size.isNegative) =
      levels.find? (fun l => l.size.isNegative) := by
  rw [standing, List.find?_filter]
  congr 1
  funext l
  rw [isRemoved, Decimal.isNegative_eq]
  cases l.size.isZero <;> simp

/-- Removed levels are never a cause, and taking them out does not put another level first. -/
theorem rejects_standing_iff : Rejects (standing asks) (standing bids) e ↔ Rejects asks bids e := by
  have hfirst (levels : List Level) (l : Level) :
      FirstNegative (standing levels) l ↔ FirstNegative levels l := by
    rw [← find?_isNegative_eq_some_iff, find?_isNegative_standing, find?_isNegative_eq_some_iff]
  have hvalid : AllValid (standing asks) ↔ AllValid asks := by
    rw [← find?_isNegative_eq_none_iff, find?_isNegative_standing, find?_isNegative_eq_none_iff]
  constructor
  · rintro (h | ⟨ha, hb⟩)
    · exact .ask ((hfirst _ _).mp h)
    · exact .bid (hvalid.mp ha) ((hfirst _ _).mp hb)
  · rintro (h | ⟨ha, hb⟩)
    · exact .ask ((hfirst _ _).mpr h)
    · exact .bid (hvalid.mpr ha) ((hfirst _ _).mpr hb)

end Level

namespace Snapshot

variable {asks bids levels : List Level} {n : Nat} {e : PanelError}

theorem side_eq_error_iff :
    side n levels = .error e ↔ ∃ l, Level.FirstNegative levels l ∧ e = .negativeSize l.price := by
  unfold side
  simp only [← Level.find?_isNegative_eq_some_iff]
  cases levels.find? (fun l => l.size.isNegative) with
  | none => simp
  | some bad => simp [eq_comm]

/-- The levels are looked through before any of them is dropped, so the limit does not matter. -/
theorem ofLevels_eq_error_iff (hn : 0 < n) :
    ofLevels asks bids n = .error e ↔ Level.Rejects asks bids e := by
  rw [ofLevels, if_neg (Nat.ne_of_gt hn)]
  constructor
  · intro h
    cases ha : side n asks with
    | error e' =>
      obtain ⟨l, hl, rfl⟩ := side_eq_error_iff.mp ha
      rw [ha] at h
      cases h
      exact .ask hl
    | ok kept =>
      cases hb : side n bids with
      | error e' =>
        obtain ⟨l, hl, rfl⟩ := side_eq_error_iff.mp hb
        rw [ha, hb] at h
        cases h
        exact .bid (side_eq_ok_iff.mp ha).1 hl
      | ok kept' =>
        rw [ha, hb] at h
        cases h
  · rintro (h | ⟨ha, hb⟩)
    · rw [side_eq_error_iff.mpr ⟨_, h, rfl⟩]
      rfl
    · rw [side_eq_ok_iff.mpr ⟨ha, rfl⟩, side_eq_error_iff.mpr ⟨_, hb, rfl⟩]
      rfl

end Snapshot

/-- A shared book is not touched by an update that the stored book refuses. -/
theorem SharedBook.handle_update_of_refused {b : SharedBook} {asks bids : List Level}
    {e : PanelError} (h : b.stored.update asks bids = ⟨b.stored, .refused e, []⟩)
    (replies : Nat → Conduct) :
    b.handle ⟨.update asks bids, replies⟩ = ⟨⟨b.stored, .refused e, []⟩, b, [],
      [.turn (.update asks bids, ⟨b.stored, .refused e, []⟩)]⟩ := by
  have hquiet := (update_settles b asks bids (Conduct.handler replies)).eq_of_quiet
    (congrArg Book.Step.events h)
  rw [handle, perform]
  dsimp only
  rw [hquiet, h]

namespace Book

variable {b : Book} {asks bids : List Level} {e : PanelError}

theorem update_of_rejects (hb : 0 < b.maxLevels) (h : Level.Rejects asks bids e) :
    b.update asks bids = ⟨b, .refused e, []⟩ := by
  rw [update, (Snapshot.ofLevels_eq_error_iff hb).mpr h]

theorem apply_ne_refused (b : Book) (s : Snapshot) (e : PanelError) :
    (b.apply s).outcome ≠ .refused e := by
  unfold apply
  cases b.stage? s <;> nofun

/-- An update is refused for the levels that it comes with; showing them is never refused. -/
theorem update_outcome_eq_refused_iff (hb : 0 < b.maxLevels) :
    (b.update asks bids).outcome = .refused e ↔ Level.Rejects asks bids e := by
  refine ⟨fun h => ?_, fun h => by rw [update_of_rejects hb h]⟩
  rw [update] at h
  cases hs : Snapshot.ofLevels asks bids b.maxLevels with
  | ok s =>
    rw [hs] at h
    exact absurd h (b.apply_ne_refused s e)
  | error e' =>
    rw [hs] at h
    cases h
    exact (Snapshot.ofLevels_eq_error_iff hb).mp hs

/-- **Refused updates.** A book with room for a level, or a shared one, refuses an update just if
some ask or bid has a size below zero, on either side and beyond the limit too; the cause is the
first such ask or, if there is none, the first such bid. A level whose size is zero with either sign
is never a cause: without those levels the answer is the same. What is refused changes nothing, the
bus included, and no subscriber is called; any requests lead to what they would have led to
otherwise. -/
theorem refused_iff_rejects (hb : 0 < b.maxLevels) (asks bids : List Level) :
    ((∃ e, (b.update asks bids).outcome = .refused e) ↔
      ∃ l, (l ∈ asks ∨ l ∈ bids) ∧ l.size < .zero) ∧
    ∀ e, ((b.update asks bids).outcome = .refused e ↔ Level.Rejects asks bids e) ∧
      (∀ bus handle, (SharedBook.update ⟨b, bus⟩ asks bids handle).outcome = .refused e ↔
        Level.Rejects asks bids e) ∧
      ((b.update (Level.standing asks) (Level.standing bids)).outcome = .refused e ↔
        (b.update asks bids).outcome = .refused e) ∧
      ((b.update asks bids).outcome = .refused e →
        (∀ rs, machine.trace b (.update asks bids :: rs) =
          ⟨b, .refused e, []⟩ :: machine.trace b rs) ∧
        ∀ bus replies es, SharedBook.machine.trace ⟨b, bus⟩ (⟨.update asks bids, replies⟩ :: es) =
          ⟨⟨b, .refused e, []⟩, ⟨b, bus⟩, [], [.turn (.update asks bids, ⟨b, .refused e, []⟩)]⟩ ::
            SharedBook.machine.trace ⟨b, bus⟩ es) := by
  have hiff {asks bids : List Level} {e : PanelError} :
      (b.update asks bids).outcome = .refused e ↔ Level.Rejects asks bids e :=
    update_outcome_eq_refused_iff hb
  refine ⟨?_, fun e => ⟨hiff, fun bus handle => ?_, ?_, fun h => ?_⟩⟩
  · simp only [hiff, Level.exists_rejects_iff]
  · rw [SharedBook.Step.outcome, SharedBook.swap_update]
    exact hiff
  · rw [hiff, hiff, Level.rejects_standing_iff]
  · have hstep : b.update asks bids = ⟨b, .refused e, []⟩ := update_of_rejects hb (hiff.mp h)
    refine ⟨fun rs => by rw [trace_cons, perform, hstep], fun bus replies es => ?_⟩
    have hshared : SharedBook.machine.perform ⟨b, bus⟩ ⟨.update asks bids, replies⟩ =
        ⟨⟨b, .refused e, []⟩, ⟨b, bus⟩, [], [.turn (.update asks bids, ⟨b, .refused e, []⟩)]⟩ :=
      SharedBook.handle_update_of_refused hstep replies
    rw [Machine.trace, hshared]
    rfl

/-- The second bid is negative, beyond the limit of one level; the ask has a zero with a minus
sign. -/
theorem refused_iff_rejects_beyond_limit :
    ((holding ⟨[], [], 1⟩).update [⟨.two, Decimal.zero.withSign true⟩]
      [⟨.one, .one⟩, ⟨.two, .extreme true⟩]).outcome = .refused (.negativeSize .two) := by
  have hiff := refused_iff_rejects (b := holding ⟨[], [], 1⟩) Nat.one_pos
    [⟨.two, Decimal.zero.withSign true⟩] [⟨.one, .one⟩, ⟨.two, .extreme true⟩]
  have hfirst : Level.FirstNegative [⟨.one, .one⟩, ⟨.two, .extreme true⟩] ⟨.two, .extreme true⟩ :=
    ⟨[⟨.one, .one⟩], [], rfl, by decide, by decide⟩
  exact (hiff.2 _).1.mpr (.bid (by decide) hfirst)

end Book

end MarketDesk
