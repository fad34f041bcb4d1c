import MarketDesk.Proofs.Book.MidRange

/-!
# Room for levels

A snapshot is made for at least one level, but it may be narrowed to none. The limit of a narrowed
snapshot is the least of the limits that it was given (`Snapshot.maxLevels_narrowed`), so it has
room for a level just if none of them was zero. A book that starts with a narrowed snapshot takes
over its limit; without room it can neither be reset nor updated (`Book.usable_iff_zero_not_mem`).
Such a book shows nothing, whatever it was asked (`Book.Reached.eq_vacant`), so that the reset which
it refuses leaves it as it is (`Book.reset_keeps_of_refused`).
-/

namespace MarketDesk

namespace Snapshot

/-- The snapshot narrowed to several limits, one after another. -/
def narrowed (s : Snapshot) (limits : List Nat) : Snapshot := limits.foldl limitedTo s

variable {s : Snapshot}

theorem narrowed_cons (s : Snapshot) (m : Nat) (limits : List Nat) :
    s.narrowed (m :: limits) = (s.limitedTo m).narrowed limits := rfl

/-- The limit after all narrowing is the least one. -/
theorem maxLevels_narrowed (s : Snapshot) (limits : List Nat) :
    (s.narrowed limits).maxLevels = limits.foldl min s.maxLevels := by
  induction limits generalizing s with
  | nil => rfl
  | cons m limits ih =>
    rw [narrowed_cons, ih, maxLevels_limitedTo, Nat.min_comm, List.foldl_cons]

/-- There is room left just if there was room and no limit is zero. -/
theorem maxLevels_narrowed_pos_iff (s : Snapshot) (limits : List Nat) :
    0 < (s.narrowed limits).maxLevels ↔ 0 < s.maxLevels ∧ 0 ∉ limits := by
  induction limits generalizing s with
  | nil => simp [narrowed]
  | cons m limits ih =>
    have hm : 0 < min m s.maxLevels ↔ 0 ≠ m ∧ 0 < s.maxLevels := by omega
    rw [narrowed_cons, ih, maxLevels_limitedTo, hm, List.mem_cons, not_or]
    constructor
    · rintro ⟨⟨hm, hs⟩, hlimits⟩
      exact ⟨hs, hm, hlimits⟩
    · rintro ⟨hs, hm, hlimits⟩
      exact ⟨⟨hm, hs⟩, hlimits⟩

theorem Made.narrowed (h : s.Made) (limits : List Nat) : (s.narrowed limits).Made := by
  induction limits generalizing s with
  | nil => exact h
  | cons m limits ih => exact ih (h.limitedTo m)

/-- A snapshot without room has no levels, so nothing in it can overflow. -/
theorem Sound.not_overflows (h : s.Sound) (hs : s.maxLevels = 0) : ¬ s.Overflows := by
  rw [h.eq_of_no_room hs]
  nofun

theorem ofLevels_zero (asks bids : List Level) : ofLevels asks bids 0 = .error .noLevels :=
  if_pos rfl

end Snapshot

namespace Book

variable {n : Nat} {asks bids : List Level} {b : Book} {s : Snapshot}

theorem maxLevels_of_ofSnapshot (h : Book.ofSnapshot s = .done b) : b.maxLevels = s.maxLevels := by
  obtain ⟨-, rfl⟩ := ofSnapshot_eq_done_iff.mp h
  rfl

theorem reset_outcome_eq_done_iff : b.reset.outcome = .done () ↔ 0 < b.maxLevels := by
  rcases Nat.eq_zero_or_pos b.maxLevels with hb | hb
  · simp [reset_of_zero hb, hb]
  · simp [reset_of_pos hb, hb]

theorem update_of_no_room (hb : b.maxLevels = 0) (asks bids : List Level) :
    b.update asks bids = ⟨b, .refused .noLevels, []⟩ := by
  rw [update, hb, Snapshot.ofLevels_zero]

/-- Levels without a negative size are taken by a book with room for them, unless no decimal holds
their mid price. -/
theorem update_outcome_eq_done_iff (hasks : Level.AllValid asks) (hbids : Level.AllValid bids) :
    (b.update asks bids).outcome = .done () ↔
      0 < b.maxLevels ∧ ¬ Level.ExtremeTops (Level.standing asks) (Level.standing bids) := by
  rcases Nat.eq_zero_or_pos b.maxLevels with hb | hb
  · simp [update_of_no_room hb, hb]
  · have htops : Level.ExtremeTops ((Level.standing asks).take b.maxLevels)
        ((Level.standing bids).take b.maxLevels) ↔ _ := Level.extremeTops_take hb
    rw [update, Snapshot.ofLevels_of_allValid hb hasks hbids, and_iff_right hb, ← htops]
    refine ⟨fun hdone hextreme => ?_, fun hfits => apply_done hb hfits⟩
    have hbroken := congrArg Step.outcome (apply_breaks (s := ⟨_, _, b.maxLevels⟩) hb hextreme)
    cases hbroken.symm.trans hdone

/-- **Usable snapshots and books.** A snapshot of two lists of levels, possibly empty ones, is
narrowed any number of times. Its limit is the least one that it was given, which leaves room for a
level just if none was zero. A book that starts with it, which there is in any case if one was zero,
has the same limit. It can be reset just if no limit was zero, and it takes levels without a
negative size just if, besides, they have a mid price; it refuses them for want of room if a limit
was zero. -/
theorem usable_iff_zero_not_mem (h : Snapshot.ofLevels asks bids n = .ok s) (limits : List Nat) :
    (s.narrowed limits).maxLevels = limits.foldl min n ∧
    (1 ≤ (s.narrowed limits).maxLevels ↔ 0 ∉ limits) ∧
    (0 ∈ limits → ∃ b, Book.ofSnapshot (s.narrowed limits) = .done b) ∧
    ∀ b, Book.ofSnapshot (s.narrowed limits) = .done b →
      b.maxLevels = (s.narrowed limits).maxLevels ∧
      (b.reset.outcome = .done () ↔ 0 ∉ limits) ∧
      ∀ asks' bids', Level.AllValid asks' → Level.AllValid bids' →
        ((b.update asks' bids').outcome = .done () ↔
          0 ∉ limits ∧ ¬ Level.ExtremeTops (Level.standing asks') (Level.standing bids')) ∧
        (0 ∈ limits → (b.update asks' bids').outcome = .refused .noLevels) := by
  have hmade := (Snapshot.Made.ofLevels h).narrowed limits
  obtain ⟨hn, -, -, rfl⟩ := Snapshot.ofLevels_eq_ok_iff.mp h
  have hroom := Snapshot.maxLevels_narrowed_pos_iff
    ⟨(Level.standing asks).take n, (Level.standing bids).take n, n⟩ limits
  rw [and_iff_right hn] at hroom
  refine ⟨Snapshot.maxLevels_narrowed .., hroom, fun hzero => ?_, fun b hb => ?_⟩
  · have hlimit := Nat.eq_zero_of_not_pos (mt hroom.mp (not_not.mpr hzero))
    exact ⟨_, ofSnapshot_of_not_overflows (hmade.sound.not_overflows hlimit)⟩
  · have hlimit := maxLevels_of_ofSnapshot hb
    rw [← hlimit] at hroom
    refine ⟨hlimit, reset_outcome_eq_done_iff.trans hroom, fun asks' bids' hasks hbids => ⟨?_, ?_⟩⟩
    · rw [update_outcome_eq_done_iff hasks hbids, hroom]
    · intro hzero
      have hfull := Nat.eq_zero_of_not_pos (mt hroom.mp (not_not.mpr hzero))
      rw [update_of_no_room hfull]

/-- A snapshot narrowed to three levels and then to two keeps two; the book that starts with it can
be reset. -/
theorem usable_after_three_and_two :
    ∃ s b, Snapshot.ofLevels [] [] 7 = .ok s ∧ (s.narrowed [3, 2]).maxLevels = 2 ∧
      Book.ofSnapshot (s.narrowed [3, 2]) = .done b ∧ b.reset.outcome = .done () := by
  have hmade : Snapshot.ofLevels [] [] 7 = .ok ⟨[], [], 7⟩ := rfl
  obtain ⟨hlimit, -, -, hbook⟩ := usable_iff_zero_not_mem hmade [3, 2]
  have hopened : Book.ofSnapshot ((⟨[], [], 7⟩ : Snapshot).narrowed [3, 2]) =
    .done (holding ⟨[], [], 2⟩) := rfl
  exact ⟨_, _, hmade, hlimit, hopened, (hbook _ hopened).2.1.mpr (by decide)⟩

/-- Narrowed to no level at all, a snapshot still opens a book, which refuses to be reset and
refuses even empty lists of levels. -/
theorem unusable_after_zero :
    ∃ s b, Snapshot.ofLevels [⟨.two, .one⟩] [⟨.one, .one⟩] 1 = .ok s ∧
      (s.limitedTo 0).maxLevels = 0 ∧ Book.ofSnapshot (s.limitedTo 0) = .done b ∧
      b.reset.outcome = .refused .noLevels ∧ (b.update [] []).outcome = .refused .noLevels :=
  ⟨⟨[⟨.two, .one⟩], [⟨.one, .one⟩], 1⟩, holding ⟨[], [], 0⟩, by decide +kernel, rfl,
    by decide +kernel, by decide +kernel, by decide +kernel⟩

/-! ## Books without room -/

/-- A book for no level at all: there is nothing in it but the count. -/
def vacant (updates : Nat) (announces : Bool) : Book :=
  { snapshot := ⟨[], [], 0⟩, maxLevels := 0, updates, announces }

section Vacant

variable {k : Nat} {announces : Bool} {r : Request} {t : Step}

theorem halted_vacant (hs : s.Sound) :
    (vacant k announces).halted s = vacant (k + 1) announces := by
  have hlimit : (s.limitedTo 0).maxLevels = 0 := by
    rw [Snapshot.maxLevels_limitedTo]
    exact Nat.zero_min _
  have hempty : s.limitedTo (vacant k announces).maxLevels = ⟨[], [], 0⟩ :=
    (hs.limitedTo 0).eq_of_no_room hlimit
  rw [halted, hempty]
  rfl

/-- A reset forgets a mid price and a direction that are not there. -/
theorem forgetful_vacant : (vacant k announces).forgetful = vacant k announces := rfl

/-- A book without room stays vacant whatever is asked of it; only the count of updates goes on. -/
theorem Performs.vacant (h : Performs (vacant k announces) r t) (hr : r.Hands Snapshot.Made) :
    ∃ k', t.book = Book.vacant k' announces := by
  cases h with
  | shown hs _ =>
    have hmade := Request.snapshot?_kind Snapshot.Built.made hr hs
    exact ⟨k + 1, congrArg derived (halted_vacant hmade.sound)⟩
  | broken hs _ =>
    have hmade := Request.snapshot?_kind Snapshot.Built.made hr hs
    exact ⟨k + 1, halted_vacant hmade.sound⟩
  | refused _ => exact ⟨k, rfl⟩
  | reset hn => exact absurd hn (Nat.lt_irrefl 0)
  | noRoom _ => exact ⟨k, forgetful_vacant⟩

theorem Opened.eq_vacant (h : Opened Snapshot.Made n b) (hb : b.maxLevels = 0) :
    ∃ k announces, b = Book.vacant k announces := by
  obtain ⟨s, announces, hs, -, -, rfl⟩ := h.eq_derived Snapshot.Built.made
  obtain rfl : s = ⟨[], [], 0⟩ := hs.sound.eq_of_no_room hb
  exact ⟨1, announces, rfl⟩

/-- **A book without room stays vacant.** -/
theorem Reached.eq_vacant (h : Reached Snapshot.Made n b) (hb : b.maxLevels = 0) :
    ∃ k announces, b = Book.vacant k announces := by
  induction h with
  | opened h => exact h.eq_vacant hb
  | perform _ hr ih =>
    rw [maxLevels_perform] at hb
    obtain ⟨k, announces, rfl⟩ := ih hb
    obtain ⟨k', hk'⟩ := (performs _ _).vacant hr
    exact ⟨k', announces, hk'⟩

end Vacant

/-- **A refused reset changes nothing.** A book is opened, perhaps with a snapshot that was narrowed
to no level at all, and asked for anything. Then a reset is granted just if the book has room for a
level; it is refused otherwise, and the book is what it was before in every respect. -/
theorem reset_keeps_of_refused (h : Reached Snapshot.Made n b) :
    (b.reset.outcome = .done () ↔ 1 ≤ b.maxLevels) ∧
    (b.reset.outcome = .refused .noLevels ↔ b.maxLevels = 0) ∧
    ∀ e, b.reset.outcome = .refused e → e = .noLevels ∧ b.reset.book = b ∧ b.reset.events = [] := by
  rcases Nat.eq_zero_or_pos b.maxLevels with hb | hb
  · -- The reset has cleared the direction and the last mid price when it is refused.
    have hkept : b.forgetful = b := by
      obtain ⟨k, announces, rfl⟩ := h.eq_vacant hb
      exact forgetful_vacant
    rw [reset_of_zero hb, hkept, hb]
    refine ⟨by simp, by simp, ?_⟩
    intro e he
    cases he
    exact ⟨rfl, rfl, rfl⟩
  · rw [reset_of_pos hb]
    refine ⟨⟨fun _ => hb, fun _ => rfl⟩, ⟨nofun, fun h => absurd h hb.ne'⟩, ?_⟩
    intro e he
    cases he

/-- A snapshot narrowed to no level opens a book, which is given two levels, refuses others and is
reset in vain; then it is reset once more. -/
theorem reset_keeps_of_refused_narrowed :
    ∃ b, Reached Snapshot.Made 0 b ∧ b.updates = 2 ∧ b.reset.outcome = .refused .noLevels ∧
      b.reset.book = b := by
  let s : Snapshot := ⟨[⟨.two, .one⟩], [⟨.one, .one⟩], 1⟩
  have hlevels : Snapshot.ofLevels [⟨.two, .one⟩] [⟨.one, .one⟩] 1 = .ok s := rfl
  have hmade : s.Made := .ofLevels hlevels
  have hopened : Opened Snapshot.Made 0 (holding ⟨[], [], 0⟩) :=
    .ofSnapshot (hmade.limitedTo 0) rfl rfl
  have h₁ := (Reached.opened hopened).perform (r := .apply s) hmade
  have h₂ := h₁.perform (r := .update [⟨.two, .one⟩] []) trivial
  have h₃ := h₂.perform (r := .reset) trivial
  obtain ⟨-, hrefused, hkept⟩ := reset_keeps_of_refused h₃
  have houtcome := hrefused.mpr (by decide +kernel)
  exact ⟨_, h₃, by decide +kernel, houtcome, (hkept _ houtcome).2.1⟩

end Book

end MarketDesk
