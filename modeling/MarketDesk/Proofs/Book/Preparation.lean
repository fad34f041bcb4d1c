import Mathlib.Logic.Relation
import MarketDesk.Proofs.Book.Room
import MarketDesk.Proofs.Book.Trace

/-!
# The preparation of a snapshot

A snapshot shows the first levels of each side that stand. What it does not show may be edited
(`Level.Edit`): one edit leaves the levels that are shown (`Level.Edit.take_standing`), and so do
any number of them. A snapshot is prepared from its own levels again, and narrowing it comes to
preparing it for fewer levels, in whatever order it is narrowed (`Snapshot.prepared_of_ofLevels`).
-/

namespace MarketDesk

namespace Level

/-- An edit of a side that a snapshot for `n` levels does not show: a removed level is put in or
taken out anywhere, or what comes after the first `n` levels that stand is replaced. -/
inductive Edit (n : Nat) : List Level → List Level → Prop
  | insert (front back : List Level) {l : Level} : l.isRemoved →
    Edit n (front ++ back) (front ++ l :: back)
  | delete (front back : List Level) {l : Level} : l.isRemoved →
    Edit n (front ++ l :: back) (front ++ back)
  | change (front : List Level) {back back' : List Level} : n ≤ (standing front).length →
    AllValid back' → Edit n (front ++ back) (front ++ back')

/-- Any number of edits. -/
abbrev Edited (n : Nat) : List Level → List Level → Prop := Relation.ReflTransGen (Edit n)

variable {n : Nat} {l : Level} {ls ls' front back : List Level}

theorem standing_append (front back : List Level) :
    standing (front ++ back) = standing front ++ standing back :=
  List.filter_append ..

theorem standing_cons_of_isRemoved (hl : l.isRemoved) (ls : List Level) :
    standing (l :: ls) = standing ls := by
  simp [standing, hl]

theorem standing_of_size_pos (h : ∀ l ∈ ls, .zero < l.size) : standing ls = ls := by
  refine List.filter_eq_self.mpr ?_
  intro l hl
  have hpos := Decimal.zero_lt_iff.mp (h l hl)
  rw [isRemoved, Bool.not_eq_true', ← Bool.not_eq_true, Decimal.isZero_iff,
    ← Decimal.natAbs_coefficient]
  omega

theorem zero_le_size_of_isRemoved (hl : l.isRemoved) : .zero ≤ l.size := by
  have hzero : l.size.magnitude = 0 := Decimal.isZero_iff.mp hl
  rw [← Decimal.natAbs_coefficient, Int.natAbs_eq_zero] at hzero
  exact Decimal.zero_le_iff.mpr hzero.ge

/-- An edit puts no size below zero anywhere: a removed level has the size zero, and the levels that
are exchanged are valid. -/
theorem Edit.allValid (h : Edit n ls ls') (hls : AllValid ls) : AllValid ls' := by
  unfold AllValid at hls ⊢
  cases h with
  | insert _ _ hl =>
    simp only [List.forall_mem_append, List.forall_mem_cons] at hls ⊢
    exact ⟨hls.1, zero_le_size_of_isRemoved hl, hls.2⟩
  | delete =>
    simp only [List.forall_mem_append, List.forall_mem_cons] at hls ⊢
    exact ⟨hls.1, hls.2.2⟩
  | change _ _ hback =>
    simp only [List.forall_mem_append] at hls ⊢
    exact ⟨hls.1, hback⟩

theorem Edit.take_standing (h : Edit n ls ls') :
    (standing ls').take n = (standing ls).take n := by
  cases h with
  | insert _ _ hl | delete _ _ hl => simp only [standing_append, standing_cons_of_isRemoved hl]
  | change _ hn =>
    rw [standing_append, standing_append, List.take_append_of_le_length hn,
      List.take_append_of_le_length hn]

theorem Edited.side (h : Edited n ls ls') (hls : AllValid ls) :
    AllValid ls' ∧ (standing ls').take n = (standing ls).take n := by
  induction h with
  | refl => exact ⟨hls, rfl⟩
  | tail _ hedit ih =>
    obtain ⟨hvalid, htake⟩ := ih
    exact ⟨hedit.allValid hvalid, hedit.take_standing.trans htake⟩

end Level

namespace Snapshot

variable {asks asks' bids bids' : List Level} {m n k : Nat} {limits limits' : List Nat}
  {s : Snapshot}

theorem ofLevels_edited (h : ofLevels asks bids m = .ok s) (hasks : Level.Edited m asks asks')
    (hbids : Level.Edited m bids bids') : ofLevels asks' bids' m = .ok s := by
  obtain ⟨hm, hvalid, hvalid', rfl⟩ := ofLevels_eq_ok_iff.mp h
  obtain ⟨hasks', htake⟩ := hasks.side hvalid
  obtain ⟨hbids', htake'⟩ := hbids.side hvalid'
  rw [← htake, ← htake']
  exact ofLevels_of_allValid hm hasks' hbids'

theorem Sound.rebuilt (h : s.Sound) (hs : 0 < s.maxLevels) :
    ofLevels s.asks s.bids s.maxLevels = .ok s := by
  obtain ⟨hasks, hbids⟩ := List.forall_mem_append.mp h.size_pos
  refine ofLevels_eq_ok_iff.mpr ⟨hs, fun l hl => (hasks l hl).le, fun l hl => (hbids l hl).le, ?_⟩
  rw [Level.standing_of_size_pos hasks, Level.standing_of_size_pos hbids,
    List.take_of_length_le h.asks_length, List.take_of_length_le h.bids_length]

/-! ## Narrowing -/

theorem narrowed_perm (h : limits.Perm limits') (s : Snapshot) :
    s.narrowed limits = s.narrowed limits' := by
  refine h.foldl_eq' ?_ s
  intro m _ n _ s
  rw [limitedTo_limitedTo, limitedTo_limitedTo, Nat.min_comm]

theorem narrowed_of_forall_le (h : ∀ m ∈ limits, s.maxLevels ≤ m) : s.narrowed limits = s := by
  induction limits with
  | nil => rfl
  | cons m limits ih =>
    obtain ⟨hm, hlimits⟩ := List.forall_mem_cons.mp h
    rw [narrowed_cons, limitedTo_of_le hm, ih hlimits]

/-- Of several limits only the least one counts. -/
theorem narrowed_eq_limitedTo (hk : k ∈ limits) (hleast : ∀ m ∈ limits, k ≤ m) (s : Snapshot) :
    s.narrowed limits = s.limitedTo k := by
  have hperm := List.perm_cons_erase hk
  rw [narrowed_perm hperm, narrowed_cons]
  -- Narrowed to the least limit first, the snapshot is narrow enough for the others.
  refine narrowed_of_forall_le ?_
  intro m hm
  rw [maxLevels_limitedTo]
  exact (Nat.min_le_left ..).trans (hleast m (List.mem_of_mem_erase hm))

/-- A snapshot that is narrowed by several limits is the one that would have been prepared for the
least of them. -/
theorem ofLevels_narrowed (h : ofLevels asks bids m = .ok s) (hlimits : 0 ∉ limits) :
    ofLevels asks bids (limits.foldl min m) = .ok (s.narrowed limits) := by
  induction limits generalizing m s with
  | nil => exact h
  | cons k limits ih =>
    obtain ⟨hk, hlimits⟩ := not_or.mp (mt List.mem_cons.mpr hlimits)
    have hlimited := ofLevels_limitedTo (Nat.pos_of_ne_zero (Ne.symm hk)) h
    rw [Nat.min_comm] at hlimited
    exact ih hlimited hlimits

/-! ## Prepared snapshots -/

/-- **The snapshot that is prepared** from two lists for `m` levels: each side is cut from the
levels that stand, edits of what is not shown make no difference, the snapshot is prepared from its
own levels again, and narrowing is preparing for fewer levels: several limits come to the least of
them, in any order. -/
structure Prepared (s : Snapshot) (asks bids : List Level) (m : Nat) : Prop where
  asks_kept : s.asks <+: Level.standing asks
  asks_length : s.asks.length = min m (Level.standing asks).length
  bids_kept : s.bids <+: Level.standing bids
  bids_length : s.bids.length = min m (Level.standing bids).length
  edited : ∀ {asks' bids'}, Level.Edited m asks asks' → Level.Edited m bids bids' →
    ofLevels asks' bids' m = .ok s
  rebuilt : ofLevels s.asks s.bids s.maxLevels = .ok s
  limitedTo : ∀ {k}, 0 < k → ofLevels asks bids (min m k) = .ok (s.limitedTo k)
  narrowed : ∀ {limits}, 0 ∉ limits →
    ofLevels asks bids (limits.foldl min m) = .ok (s.narrowed limits)
  narrowed_least : ∀ {limits k}, k ∈ limits → (∀ m ∈ limits, k ≤ m) →
    s.narrowed limits = s.limitedTo k
  narrowed_perm : ∀ {limits limits'}, limits.Perm limits' → s.narrowed limits = s.narrowed limits'

/-- **What preparing a snapshot guarantees.** It depends on the levels that stand and on the limit
alone, preparing it again changes nothing, and narrowing comes to preparing for fewer levels. -/
theorem prepared_of_ofLevels (h : ofLevels asks bids m = .ok s) : s.Prepared asks bids m := by
  have hsound := (Made.ofLevels h).sound
  have hbuilt : s.Built := ⟨asks, bids, m, h⟩
  obtain ⟨-, -, -, hs⟩ := ofLevels_eq_ok_iff.mp h
  have hasks : s.asks = (Level.standing asks).take m := by rw [hs]
  have hbids : s.bids = (Level.standing bids).take m := by rw [hs]
  refine ⟨?_, ?_, ?_, ?_, ofLevels_edited h, hsound.rebuilt hbuilt.maxLevels_pos, ?_,
    ofLevels_narrowed h, fun hk hleast => narrowed_eq_limitedTo hk hleast s,
    fun hperm => Snapshot.narrowed_perm hperm s⟩
  · rw [hasks]
    exact List.take_prefix ..
  · rw [hasks, List.length_take]
  · rw [hbids]
    exact List.take_prefix ..
  · rw [hbids, List.length_take]
  · intro k hk
    rw [Nat.min_comm]
    exact ofLevels_limitedTo hk h

/-- The removed ask in front is taken out, and then the one behind the limit is replaced by two; the
snapshot for one level is the same, and narrowing it to three and two levels leaves it so. -/
theorem prepared_of_ofLevels_edited :
    ∃ s, ofLevels [⟨.two, .zero⟩, ⟨.two, .one⟩, ⟨.two, .two⟩] [⟨.one, .one⟩] 1 = .ok s ∧
      s.Prepared [⟨.two, .zero⟩, ⟨.two, .one⟩, ⟨.two, .two⟩] [⟨.one, .one⟩] 1 ∧
      ofLevels [⟨.two, .one⟩, ⟨.one, .zero⟩, ⟨.one, .two⟩] [⟨.one, .one⟩] 1 = .ok s ∧
      s.narrowed [3, 2] = s.limitedTo 2 := by
  have hlevels : ofLevels [⟨.two, .zero⟩, ⟨.two, .one⟩, ⟨.two, .two⟩] [⟨.one, .one⟩] 1 =
    .ok ⟨[⟨.two, .one⟩], [⟨.one, .one⟩], 1⟩ := rfl
  have htaken : Level.Edit 1 [⟨.two, .zero⟩, ⟨.two, .one⟩, ⟨.two, .two⟩]
    [⟨.two, .one⟩, ⟨.two, .two⟩] := .delete [] _ rfl
  have hreplaced : Level.Edit 1 [⟨.two, .one⟩, ⟨.two, .two⟩]
    [⟨.two, .one⟩, ⟨.one, .zero⟩, ⟨.one, .two⟩] := .change [⟨.two, .one⟩] (by decide) (by decide)
  have hprepared := prepared_of_ofLevels hlevels
  exact ⟨_, hlevels, hprepared, hprepared.edited (.tail (.single htaken) hreplaced) .refl,
    hprepared.narrowed_least (by decide) (by decide)⟩

end Snapshot

end MarketDesk
