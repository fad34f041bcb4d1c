import MarketDesk.Console
import MarketDesk.Proofs.Book.Refusal
import MarketDesk.Proofs.Machine
import MarketDesk.Proofs.Wire.Shape

/-!
# Settings in force

A keeper loads, reloads and saves settings while others write to the disk and while whoever holds
the settings may edit them (`Keeper.machine`). A file offers settings (`Disk.Offers`) if its whole
text is read as these and they can be used; a keeper takes nothing else from a file. So settings
that nobody edited can be used at every point of a run, and requests that fail leave them as they
were (`Keeper.guarded_of_run`).
-/

namespace MarketDesk

namespace Settings

theorem default_isValid : ({} : Settings).IsValid := by decide

theorem isValid_iff {s : Settings} : s.IsValid ↔ 0 < s.book.maxLevels ∧
    s.logging.level?.isSome ∧ Text.isBlankText s.history.datePattern = false := by
  rw [IsValid, validate, Nat.pos_iff_ne_zero]
  by_cases hlevels : s.book.maxLevels = 0
  · simp [hlevels]
  · cases s.logging.level? <;> cases Text.isBlankText s.history.datePattern <;> simp [hlevels]

theorem IsValid.maxLevels_pos {s : Settings} (h : s.IsValid) : 0 < s.book.maxLevels :=
  (isValid_iff.mp h).1

end Settings

/-- The file of this path has a text, all of it is read as these settings, and they can be used. -/
def Disk.Offers (d : Disk) (path : String) (s : Settings) : Prop :=
  ∃ text, d.readText? path = some text ∧ Settings.ofDocument text = .ok s ∧ s.IsValid

theorem Disk.Offers.isValid {d : Disk} {path : String} {s : Settings} (h : d.Offers path s) :
    s.IsValid := by
  obtain ⟨_, _, _, hs⟩ := h
  exact hs

/-- The file of this path has no settings that can be used, or there is no such file. -/
def Disk.OffersNone (d : Disk) (path : String) : Prop := ∀ s, ¬ d.Offers path s

namespace Keeper

/-- What happens to a keeper and its disk. -/
inductive Request where
  | load
  | loadOrDefault
  | reload
  | save
  /-- Other settings are put in force, unchecked. -/
  | edit (s : Settings)
  /-- Others change the disk in any way. -/
  | rewrite (d : Disk)

/-- What a request leads to. -/
structure Reply where
  keeper : Keeper
  disk : Disk
  result : Except SettingsError Unit

/-- Handles a request. -/
def perform (p : Keeper × Disk) : Request → Reply
  | .load =>
    let t := Step.of p.1 (p.1.load p.2)
    ⟨t.keeper, p.2, t.result⟩
  | .loadOrDefault => ⟨p.1.loadOrDefault p.2, p.2, .ok ()⟩
  | .reload =>
    let t := p.1.reload p.2
    ⟨t.keeper, p.2, t.result⟩
  | .save =>
    let t := p.1.save p.2
    ⟨p.1, t.disk, t.result⟩
  | .edit s => ⟨{ p.1 with settings := s }, p.2, .ok ()⟩
  | .rewrite d => ⟨p.1, d, .ok ()⟩

/-- A keeper with the disk that it works on. -/
def machine : Machine (Keeper × Disk) Request Reply := ⟨perform, fun t => (t.keeper, t.disk)⟩

/-- The keeper with settings that count as loaded. -/
def holding (m : Keeper) (s : Settings) : Keeper := { m with settings := s, loaded := true }

/-- **What requests do** to a keeper in any state. Loading and reloading take what the file offers,
and are granted just if it offers something; if not, the settings stay, but count as not loaded
after a reload. With the defaults to fall back on there are always settings that count as loaded.
Settings that cannot be used are not saved: the disk stays as it is. -/
structure Guarded (m : Keeper) (d : Disk) : Prop where
  load_granted : (perform (m, d) .load).result = .ok () ↔ ∃ s, d.Offers m.path s
  load : ∀ s, d.Offers m.path s → perform (m, d) .load = ⟨m.holding s, d, .ok ()⟩
  load_failed : d.OffersNone m.path → ∃ e, perform (m, d) .load = ⟨m, d, .error e⟩
  reload_granted : (perform (m, d) .reload).result = .ok () ↔ ∃ s, d.Offers m.path s
  reload : ∀ s, d.Offers m.path s → perform (m, d) .reload = ⟨m.holding s, d, .ok ()⟩
  reload_failed : d.OffersNone m.path →
    ∃ e, perform (m, d) .reload = ⟨{ m with loaded := false }, d, .error e⟩
  taken : ∀ s, d.Offers m.path s → perform (m, d) .loadOrDefault = ⟨m.holding s, d, .ok ()⟩
  fallen_back : d.OffersNone m.path →
    perform (m, d) .loadOrDefault = ⟨m.holding {}, d, .ok ()⟩
  save_refused : ∀ reason, m.settings.validate = .error reason →
    perform (m, d) .save = ⟨m, d, .error (.invalid reason)⟩

variable {m : Keeper} {d : Disk} {s : Settings} {path : String}

/-- Settings are taken from a file just if its text can be read, says these settings and they are
valid. -/
theorem contents_eq_ok_iff : contents path (d.readText? path) = .ok s ↔ d.Offers path s := by
  unfold Disk.Offers
  cases d.readText? path with
  | none => exact ⟨nofun, nofun⟩
  | some text =>
    simp only [contents, bind_eq_ok_iff, mapError_eq_ok_iff, Option.some.injEq,
      exists_eq_left', Settings.IsValid]
    constructor
    · rintro ⟨s', hread, ⟨⟩, hvalid, hs⟩
      obtain rfl := Except.ok.inj hs
      exact ⟨hread, hvalid⟩
    · rintro ⟨hread, hvalid⟩
      exact ⟨s, hread, (), hvalid, rfl⟩

theorem load_of_offers (h : d.Offers m.path s) : m.load d = .ok (m.holding s) := by
  rw [Keeper.load, loadText, contents_eq_ok_iff.mpr h]
  rfl

theorem load_of_offersNone (h : d.OffersNone m.path) : ∃ e, m.load d = .error e := by
  rw [Keeper.load, loadText]
  cases hs : contents m.path (d.readText? m.path) with
  | error e => exact ⟨e, rfl⟩
  | ok s => exact absurd (contents_eq_ok_iff.mp hs) (h s)

theorem loadOrDefault_eq (m : Keeper) (d : Disk) : m.loadOrDefault d =
    match m.load d with
    | .ok m' => m'
    | .error _ => m.holding {} := rfl

theorem perform_load_of_offers (h : d.Offers m.path s) :
    perform (m, d) .load = ⟨m.holding s, d, .ok ()⟩ := by
  rw [perform, load_of_offers h]
  rfl

theorem perform_reload_of_offers (h : d.Offers m.path s) :
    perform (m, d) .reload = ⟨m.holding s, d, .ok ()⟩ := by
  have hload := load_of_offers (m := { m with loaded := false }) h
  rw [perform, Keeper.reload, hload]
  rfl

theorem perform_load_of_offersNone (h : d.OffersNone m.path) :
    ∃ e, perform (m, d) .load = ⟨m, d, .error e⟩ := by
  obtain ⟨e, he⟩ := load_of_offersNone h
  exact ⟨e, by rw [perform, he]; rfl⟩

theorem perform_reload_of_offersNone (h : d.OffersNone m.path) :
    ∃ e, perform (m, d) .reload = ⟨{ m with loaded := false }, d, .error e⟩ := by
  obtain ⟨e, he⟩ := load_of_offersNone (m := { m with loaded := false }) h
  exact ⟨e, by rw [perform, Keeper.reload, he]; rfl⟩

/-- A request that is granted for what the file offers and fails if it offers nothing is granted
just if the file offers something. -/
theorem granted_iff_offers {r : Request} {m' : Keeper}
    (hgranted : ∀ s, d.Offers m.path s → (perform (m, d) r).result = .ok ())
    (hfailed : d.OffersNone m.path → ∃ e, perform (m, d) r = ⟨m', d, .error e⟩) :
    (perform (m, d) r).result = .ok () ↔ ∃ s, d.Offers m.path s := by
  refine ⟨fun hok => ?_, fun ⟨s, h⟩ => hgranted s h⟩
  by_contra hnone
  obtain ⟨e, he⟩ := hfailed (not_exists.mp hnone)
  rw [he] at hok
  cases hok

/-- What requests do follows from what the file offers, and it offers settings or none. -/
theorem guarded (m : Keeper) (d : Disk) : Guarded m d where
  load_granted := granted_iff_offers
    (fun _ h => congrArg Reply.result (perform_load_of_offers h)) perform_load_of_offersNone
  load _ := perform_load_of_offers
  load_failed := perform_load_of_offersNone
  reload_granted := granted_iff_offers
    (fun _ h => congrArg Reply.result (perform_reload_of_offers h)) perform_reload_of_offersNone
  reload _ := perform_reload_of_offers
  reload_failed := perform_reload_of_offersNone
  taken s h := by rw [perform, loadOrDefault_eq, load_of_offers h]
  fallen_back h := by
    obtain ⟨e, he⟩ := load_of_offersNone h
    rw [perform, loadOrDefault_eq, he]
  save_refused reason h := by rw [perform, Keeper.save, h]

/-- The keeper after a request: settings that can be used were put in force, or the settings stayed,
or they were edited. -/
theorem keeper_perform_cases (m : Keeper) (d : Disk) (r : Request) :
    (∃ s : Settings, s.IsValid ∧ (perform (m, d) r).keeper = m.holding s) ∨
    (∃ loaded, (perform (m, d) r).keeper = { m with loaded }) ∨
    ∃ s, r = .edit s ∧ (perform (m, d) r).keeper = { m with settings := s } := by
  have hguard := guarded m d
  by_cases h : ∃ s, d.Offers m.path s
  · obtain ⟨s, h⟩ := h
    cases r with
    | load => exact .inl ⟨s, h.isValid, by rw [hguard.load s h]⟩
    | loadOrDefault => exact .inl ⟨s, h.isValid, by rw [hguard.taken s h]⟩
    | reload => exact .inl ⟨s, h.isValid, by rw [hguard.reload s h]⟩
    | save => exact .inr (.inl ⟨m.loaded, rfl⟩)
    | edit s => exact .inr (.inr ⟨s, rfl, rfl⟩)
    | rewrite d' => exact .inr (.inl ⟨m.loaded, rfl⟩)
  · have hnone : d.OffersNone m.path := not_exists.mp h
    cases r with
    | load =>
      obtain ⟨e, he⟩ := hguard.load_failed hnone
      exact .inr (.inl ⟨m.loaded, by rw [he]⟩)
    | loadOrDefault =>
      have hback := hguard.fallen_back hnone
      exact .inl ⟨{}, Settings.default_isValid, by rw [hback]⟩
    | reload =>
      obtain ⟨e, he⟩ := hguard.reload_failed hnone
      exact .inr (.inl ⟨false, by rw [he]⟩)
    | save => exact .inr (.inl ⟨m.loaded, rfl⟩)
    | edit s => exact .inr (.inr ⟨s, rfl, rfl⟩)
    | rewrite d' => exact .inr (.inl ⟨m.loaded, rfl⟩)

/-! ## Runs -/

theorem path_after (p : Keeper × Disk) (rs : List Request) :
    (machine.after p rs).1.path = p.1.path := by
  refine Machine.after_keeps (I := fun q : Keeper × Disk => q.1.path = p.1.path) ?_ rfl rs
  intro q r hq
  refine Eq.trans ?_ hq
  change (perform q r).keeper.path = q.1.path
  obtain ⟨s, -, h⟩ | ⟨loaded, h⟩ | ⟨s, -, h⟩ := keeper_perform_cases q.1 q.2 r <;> rw [h]
  rfl

/-- Settings that can be used are followed by such settings unless they are edited. -/
theorem isValid_perform {r : Request} (hr : ∀ s, r ≠ .edit s) (h : m.settings.IsValid) :
    (perform (m, d) r).keeper.settings.IsValid := by
  obtain ⟨s, hs, hm⟩ | ⟨loaded, hm⟩ | ⟨s, hs, -⟩ := keeper_perform_cases m d r
  · rw [hm]
    exact hs
  · rw [hm]
    exact h
  · exact absurd hs (hr s)

theorem isValid_after {p : Keeper × Disk} {rs : List Request} (hrs : ∀ s, .edit s ∉ rs)
    (h : p.1.settings.IsValid) : (machine.after p rs).1.settings.IsValid := by
  induction rs generalizing p with
  | nil => exact h
  | cons r rs ih =>
    refine ih (fun s hs => hrs s (List.mem_cons_of_mem _ hs)) ?_
    exact isValid_perform (fun s hr => hrs s (hr ▸ List.mem_cons_self)) h

/-- A snapshot of the demonstration is not refused for want of room. -/
theorem demo_ne_noLevels {n : Nat} (hn : 0 < n) (offset : Int) :
    Demo.snapshot offset n ≠ .refused .noLevels := by
  intro hrefused
  rw [Demo.snapshot] at hrefused
  cases hasks : Demo.asks? offset with
  | none => simp [hasks] at hrefused
  | some asks =>
    cases hbids : Demo.bids? offset with
    | none => simp [hasks, hbids] at hrefused
    | some bids =>
      cases hs : Snapshot.ofLevels asks bids n with
      | ok s => simp [hasks, hbids, hs] at hrefused
      | error e =>
        obtain rfl : e = .noLevels := by simpa [hasks, hbids, hs] using hrefused
        -- Only a negative size is left as a cause when there is room.
        nomatch (Snapshot.ofLevels_eq_error_iff hn).mp hs

/-- What the console prints does not depend on whether its log can be written. -/
theorem run_eq_session (call : Console.Call) (d : Disk) {s : Settings}
    (h : ((ofPath (Console.settingsPath call.arguments)).loadOrDefault d).settings = s) :
    (Console.run call d).printed = (Console.session s).printed ∧
      (Console.run call d).broken = (Console.session s).broken := by
  unfold Console.run
  dsimp only
  rw [h]
  split
  · exact ⟨rfl, rfl⟩
  · exact ⟨rfl, rfl⟩

/-- **Settings that are taken from files.** A keeper starts with the defaults, on a file that others
may write to at any time. At every point of a run the settings in force can be used unless they have
been edited, and whether or not they have been, requests do what `Guarded` says. So the number of
levels for which the console opens its book and takes snapshots is never zero, whatever there is on
the disk, and neither the book nor a snapshot is refused for it. -/
theorem guarded_of_run {path : String} {d₀ : Disk} {rs : List Request}
    (h : machine.after (ofPath path, d₀) rs = (m, d)) :
    m.path = path ∧ ((∀ s, .edit s ∉ rs) → m.settings.IsValid) ∧ Guarded m d ∧
    ∀ call disk s,
      ((ofPath (Console.settingsPath call.arguments)).loadOrDefault disk).settings = s →
      (Console.run call disk).printed = (Console.session s).printed ∧
      (Console.run call disk).broken = (Console.session s).broken ∧
      1 ≤ s.book.maxLevels ∧ (∃ b, Book.new s.book.maxLevels = .done b) ∧
      ∀ offset, Demo.snapshot offset s.book.maxLevels ≠ .refused .noLevels := by
  obtain ⟨rfl, rfl⟩ := Prod.mk.inj h
  refine ⟨path_after _ rs, fun hrs => isValid_after hrs Settings.default_isValid, guarded _ _, ?_⟩
  rintro call disk s rfl
  have hvalid := isValid_perform (d := disk) (m := ofPath (Console.settingsPath call.arguments))
    (r := .loadOrDefault) nofun Settings.default_isValid
  have hroom := hvalid.maxLevels_pos
  obtain ⟨hprinted, hbroken⟩ := run_eq_session call disk rfl
  exact ⟨hprinted, hbroken, hroom, ⟨_, Book.new_of_pos hroom⟩, demo_ne_noLevels hroom⟩

/-- A file without room for a level is refused, one with room for three is taken, and a broken one
changes nothing; what is in force can be used. -/
theorem guarded_of_run_rewritten :
    ∃ rs m d, machine.after (ofPath "desk.toml", Disk.ofHome []) rs = (m, d) ∧
      (∀ s, .edit s ∉ rs) ∧ m.settings.IsValid ∧ m.settings.book.maxLevels = 3 ∧
      m.loaded = false := by
  let file (text : String) : Request :=
    .rewrite ((Disk.ofHome []).put ["desk.toml"] (.text text))
  let rs := [file "[order_book]\nmax_levels = 0", .load, file "[order_book]\nmax_levels = 3",
    .load, file "[order_book", .reload]
  have hrs : ∀ s, .edit s ∉ rs := by simp [rs, file]
  have hrun : machine.after (ofPath "desk.toml", Disk.ofHome []) rs = (_, _) := rfl
  have hguarded := guarded_of_run hrun
  exact ⟨rs, _, _, rfl, hrs, hguarded.2.1 hrs, by decide +kernel, by decide +kernel⟩

end Keeper

end MarketDesk
