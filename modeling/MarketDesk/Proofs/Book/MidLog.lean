import MarketDesk.Proofs.Book.Run

/-!
# The log of mid prices

Each snapshot that a book shows and each reset leaves one mark (`Book.Request.marks`): the mid price
of the snapshot, or a gap. The marks decide the direction of the book and with it the colour of the
row of the mid price (`Book.direction_of_run`). Nothing else does; in particular a refused update
leaves no mark.
-/

namespace MarketDesk

/-- A mid price, or a gap where there was none. -/
inductive Mark where
  | mid (v : Decimal)
  | gap
deriving DecidableEq

/-- The mark of a snapshot that does not overflow: the price halfway between the best prices if both
sides have levels. -/
def Snapshot.mark (s : Snapshot) : Mark :=
  match s.mid? with
  | some v => .mid v
  | none => .gap

/-- The marks that a request leaves on a book for `n` levels. -/
def Book.Request.marks (n : Nat) : Request → List Mark
  | .update asks bids =>
    match Snapshot.ofLevels asks bids n with
    | .ok s => [s.mark]
    | .error _ => []
  | .apply s => [(s.limitedTo n).mark]
  | .reset => if n = 0 then [] else [.gap]

namespace Mark

/-- The mid price of the last mark. -/
def last? (log : List Mark) : Option Decimal :=
  match log.reverse with
  | .mid v :: _ => some v
  | _ => none

/-- The move between the last two marks if both are mid prices; no move otherwise. Mid prices are
compared by value. -/
def direction (log : List Mark) : Direction :=
  match log.reverse with
  | .mid v :: .mid u :: _ =>
    if u.value < v.value then .up else if v.value < u.value then .down else .flat
  | _ => .flat

@[simp] theorem last?_append_mid (log : List Mark) (v : Decimal) :
    last? (log ++ [.mid v]) = some v := by
  simp [last?]

@[simp] theorem last?_append_gap (log : List Mark) : last? (log ++ [.gap]) = none := by
  simp [last?]

@[simp] theorem direction_append_gap (log : List Mark) : direction (log ++ [.gap]) = .flat := by
  simp [direction]

@[simp] theorem direction_append_mid (log : List Mark) (v : Decimal) :
    direction (log ++ [.mid v]) = .between (last? log) v := by
  unfold direction last?
  rw [List.reverse_append, List.reverse_singleton, List.singleton_append]
  rcases log.reverse with _ | ⟨_ | u, _⟩
  · rfl
  · simp only [Direction.between, Decimal.lt_iff_value_lt]
  · rfl

end Mark

namespace Book

variable {n : Nat} {b b₀ : Book} {s : Snapshot} {r : Request} {rs : List Request} {log : List Mark}

/-- **The book follows the log.** Its limit says which requests leave marks; without room for a
level there is never a mid price to refer to, so that the reset that fails forgets nothing. -/
structure Follows (n : Nat) (log : List Mark) (b : Book) : Prop where
  maxLevels : b.maxLevels = n
  lastMid : b.lastMid = Mark.last? log
  direction : b.direction = Mark.direction log
  empty : n = 0 → b.lastMid = none ∧ b.direction = .flat

theorem mid?_of_no_room (h : s.Sound) (hn : s.maxLevels = 0) : s.mid? = none := by
  rw [h.eq_of_no_room hn]
  rfl

/-- A book that shows a snapshot follows the log with the mark of that snapshot, provided that it
still remembers the last mark. -/
theorem derived_follows (hlimit : b.maxLevels = n) (hsound : b.snapshot.Sound)
    (hle : b.snapshot.maxLevels ≤ n) (hlast : b.lastMid = Mark.last? log) :
    Follows n (log ++ [b.snapshot.mark]) b.derived where
  maxLevels := hlimit
  lastMid := by
    rw [derived, Snapshot.mark]
    cases b.snapshot.mid? <;> simp
  direction := by
    rw [derived, Snapshot.mark, hlast]
    cases b.snapshot.mid? <;> simp
  empty hn := by
    have hmid := mid?_of_no_room hsound (Nat.le_zero.mp (hn ▸ hle))
    exact ⟨hmid, direction_derived_of_mid? hmid⟩

theorem opened_follows (h : Opened Snapshot.Made n b) : Follows n [b.snapshot.mark] b := by
  obtain ⟨s, announces, hs, rfl, -, rfl⟩ := h.eq_derived Snapshot.Built.made
  have hlast : { holding s with announces }.lastMid = Mark.last? [] := rfl
  exact derived_follows (b := { holding s with announces }) rfl hs.sound (Nat.le_refl _) hlast

/-- An update prepares its snapshot for the limit of the book, so that cutting it again changes
nothing: every request that shows a snapshot leaves the mark of what is shown. -/
theorem Request.marks_of_shown (h : r.snapshot? n = some s) :
    r.marks n = [(s.limitedTo n).mark] := by
  cases r with
  | update asks bids =>
    have hs := snapshot?_update_eq_some_iff.mp h
    obtain ⟨-, -, -, hlimit⟩ := Snapshot.ofLevels_eq_ok_iff.mp hs
    have hsame : s.limitedTo n = s := by simp [Snapshot.limitedTo, hlimit]
    rw [marks, hs, hsame]
  | apply s' =>
    obtain rfl := Option.some.inj h
    rfl
  | reset => cases h

theorem Request.marks_of_refused (hr : r ≠ .reset) (h : r.snapshot? n = none) :
    r.marks n = [] := by
  cases r with
  | update asks bids =>
    obtain ⟨e, he⟩ := snapshot?_update_eq_none_iff.mp h
    rw [marks, he]
  | apply s => cases h
  | reset => exact absurd rfl hr

/-- One request that does not break appends its marks to the log that the book follows. -/
theorem perform_follows (h : Follows n log b) (hr : r.Hands Snapshot.Made)
    (hdone : (b.perform r).outcome ≠ .broken) :
    Follows n (log ++ r.marks n) (b.perform r).book := by
  obtain rfl := h.maxLevels
  rcases perform_cases hdone with ⟨s, hs, -, hbook⟩ | ⟨hr, hs, hbook⟩ | ⟨rfl, hn, hbook⟩ |
    ⟨rfl, hn, hbook⟩
  · have hmade : s.Made := Request.snapshot?_kind Snapshot.Built.made hr hs
    have hmin := s.maxLevels_limitedTo b.maxLevels
    rw [hbook, Request.marks_of_shown hs]
    refine derived_follows (b := b.halted s) rfl (hmade.sound.limitedTo _) ?_ h.lastMid
    change (s.limitedTo b.maxLevels).maxLevels ≤ b.maxLevels
    omega
  · rw [hbook, Request.marks_of_refused hr hs, List.append_nil]
    exact h
  · rw [hbook, Request.marks, if_neg (Nat.ne_of_gt hn)]
    exact ⟨rfl, by simp [blank], by simp [blank], fun h => absurd h (Nat.ne_of_gt hn)⟩
  · obtain ⟨hlast, hflat⟩ := h.empty hn
    rw [hbook, Request.marks, if_pos hn, List.append_nil]
    exact ⟨rfl, hlast.symm.trans h.lastMid, hflat.symm.trans h.direction, fun _ => ⟨rfl, rfl⟩⟩

theorem follows_of_run (h₀ : Opened Snapshot.Made n b₀) (h : Run Snapshot.Made b₀ rs b) :
    Follows n (b₀.snapshot.mark :: rs.flatMap (Request.marks n)) b := by
  induction h with
  | nil => exact opened_follows h₀
  | snoc _ hr hdone ih =>
    rw [List.flatMap_append, List.flatMap_singleton, ← List.cons_append]
    exact perform_follows ih hr hdone

theorem rowAt_asks_length (b : Book) : b.rowAt b.snapshot.asks.length = .done b.midRow := by
  simp [rowAt, slotAt, Slot.ofIndex?, row?]

/-- **The direction is that of the log.** After any requests, refused updates and resets among them,
the book and the row of the mid price show the move between the last two marks. -/
theorem direction_of_run (h₀ : Opened Snapshot.Made n b₀) (h : Run Snapshot.Made b₀ rs b) :
    b.direction = Mark.direction (b₀.snapshot.mark :: rs.flatMap (Request.marks n)) ∧
      ∃ row, b.rowAt b.snapshot.asks.length = .done row ∧ row.isMid ∧
        row.tone = (Mark.direction (b₀.snapshot.mark :: rs.flatMap (Request.marks n))).tone := by
  have hdirection := (follows_of_run h₀ h).direction
  exact ⟨hdirection, b.midRow, rowAt_asks_length b, rfl, by rw [← hdirection]; rfl⟩

/-- A refused update between two mid prices is not seen. -/
theorem direction_of_run_up :
    ∃ b, Run Snapshot.Made (holding ⟨[], [], 1⟩)
      [.update [⟨.two, .one⟩] [⟨.one, .one⟩], .update [] [⟨.one, .extreme true⟩],
        .update [⟨.two, .one⟩] [⟨.two, .one⟩]] b ∧ b.direction = .up := by
  have hopened := opened_empty Snapshot.Made Nat.one_pos
  have h₀ : Run Snapshot.Made (holding ⟨[], [], 1⟩) [] _ := .nil
  have h₁ := h₀.snoc (r := .update [⟨.two, .one⟩] [⟨.one, .one⟩]) trivial (by decide +kernel)
  have h₂ := h₁.snoc (r := .update [] [⟨.one, .extreme true⟩]) trivial (by decide +kernel)
  have h₃ := h₂.snoc (r := .update [⟨.two, .one⟩] [⟨.two, .one⟩]) trivial (by decide +kernel)
  exact ⟨_, h₃, (direction_of_run hopened h₃).1.trans (by decide +kernel)⟩

end Book

end MarketDesk
