import MarketDesk.Proofs.Settings.Document
import MarketDesk.Proofs.Settings.Keeping

/-!
# Saved settings are loaded again

What is written into a file is read from it (`Disk.writable_iff`), and the document of the settings
gives these settings (`Settings.ofDocument_of_toDocument?`). So settings that are saved are loaded
again by whoever opens the same file, with every text and every number in them, and numbers that are
too large for a document are refused before anything is written (`Keeper.load_save`).
-/

namespace MarketDesk

namespace Disk

/-- The attempt to make the folders on the way to a file. -/
def wayTo (d : Disk) (path : String) : Attempt := d.makeWay path (Path.names path).dropLast

/-- A file with this path can be written and keeps what is written into it: the folders on the way
to it are there or can be made, and at its place there is neither a folder nor a sink. -/
structure Writable (d : Disk) (path : String) : Prop where
  made : (d.wayTo path).done = true
  place : ∃ p, (d.wayTo path).disk.place? path = some p ∧
    Disk.entry? (d.wayTo path).disk p ≠ some .folder ∧
    Disk.entry? (d.wayTo path).disk p ≠ some .sink

/-! ## Entries -/

section Put

variable {d : Disk} {p q : Place} {e : Entry}

theorem ne_nil_of_ne_folder (h : d.entry? p ≠ some .folder) : p ≠ [] := by
  rintro rfl
  exact h rfl

theorem entry?_put_self (hp : p ≠ []) : Disk.entry? (d.put p e) p = some e := by
  have hnone : (d.entries.filter (fun x => x.1 != p)).lookup p = none := by
    rw [List.lookup_eq_none_iff]
    intro x hx
    have hne : x.1 ≠ p := bne_iff_ne.mp (List.mem_filter.mp hx).2
    exact bne_iff_ne.mpr hne.symm
  unfold entry?
  rw [if_neg (by simpa using hp), put, List.lookup_append, hnone, Option.none_or,
    List.lookup_cons_self]

theorem lookup_filter_of_ne (es : List (Place × Entry)) (h : q ≠ p) :
    (es.filter (fun x => x.1 != p)).lookup q = es.lookup q := by
  induction es with
  | nil => rfl
  | cons x es ih =>
    obtain ⟨r, e⟩ := x
    by_cases hr : r = p
    · rw [List.filter_cons_of_neg (by simp [hr]), List.lookup_cons, ih, hr,
        beq_eq_false_iff_ne.mpr h]
    · rw [List.filter_cons_of_pos (by simpa using hr), List.lookup_cons, List.lookup_cons, ih]

theorem entry?_put_of_ne (h : q ≠ p) : Disk.entry? (d.put p e) q = d.entry? q := by
  have hlast : [(p, e)].lookup q = none := by simp [h]
  unfold entry?
  rw [put, List.lookup_append, lookup_filter_of_ne _ h, hlast, Option.or_none]

/-- Where there was no folder a file makes none. -/
theorem isFolder_put (hold : d.entry? p ≠ some .folder) (hnew : e ≠ .folder) (q : Place) :
    (d.put p e).isFolder q = d.isFolder q := by
  by_cases h : q = p
  · rw [isFolder, isFolder, h, entry?_put_self (ne_nil_of_ne_folder hold)]
    simp [hold, hnew]
  · rw [isFolder, isFolder, entry?_put_of_ne h]

theorem walk?_congr {d' : Disk} (h : ∀ q, d'.isFolder q = d.isFolder q) (here : Place)
    (pieces : List String) : d'.walk? here pieces = d.walk? here pieces := by
  induction pieces generalizing here with
  | nil => rfl
  | cons piece rest ih =>
    rw [walk?, walk?, h here]
    split
    · exact congrArg _ (funext ih)
    · rfl

/-- Paths lead to the same places after a file has been written. -/
theorem place?_put (hold : d.entry? p ≠ some .folder) (hnew : e ≠ .folder) (path : String) :
    (d.put p e).place? path = d.place? path := by
  rw [place?, place?, walk?_congr (isFolder_put hold hnew)]
  rfl

end Put

/-! ## Files -/

variable {d : Disk} {path : String}

theorem readText?_put {p : Place} (hplace : d.place? path = some p)
    (hold : d.entry? p ≠ some .folder) (text : String) :
    (d.put p (.text text)).readText? path = some text := by
  have hnew : Entry.text text ≠ .folder := nofun
  rw [readText?, find?, place?_put hold hnew, hplace, Option.bind_some,
    entry?_put_self (ne_nil_of_ne_folder hold)]

theorem write?_eq_put {p : Place} {e : Entry} (hplace : d.place? path = some p)
    (hfolder : d.entry? p ≠ some .folder) (hsink : d.entry? p ≠ some .sink) :
    d.write? path e = some (d.put p e) := by
  rw [write?, hplace]
  dsimp only [bind, Option.bind]
  split
  · exact absurd ‹_› hfolder
  · exact absurd ‹_› hsink
  · rfl

theorem writeDeep_eq (d : Disk) (path : String) (e : Entry) : d.writeDeep path e =
    if (d.wayTo path).done then
      match (d.wayTo path).disk.write? path e with
      | some d => ⟨d, true⟩
      | none => ⟨(d.wayTo path).disk, false⟩
    else d.wayTo path := rfl

/-- **Just those files can be written of which every text can be read that was written.** -/
theorem writable_iff : d.Writable path ↔
    ∀ text, ∃ d', d.writeDeep path (.text text) = ⟨d', true⟩ ∧ d'.readText? path = some text := by
  constructor
  · rintro ⟨hmade, p, hplace, hfolder, hsink⟩ text
    refine ⟨(d.wayTo path).disk.put p (.text text), ?_, readText?_put hplace hfolder text⟩
    rw [writeDeep_eq, if_pos hmade, write?_eq_put hplace hfolder hsink]
  · intro h
    have hmade : (d.wayTo path).done = true := by
      by_contra hmade
      obtain ⟨d', hwrite, -⟩ := h ""
      rw [writeDeep_eq, if_neg hmade] at hwrite
      exact hmade (congrArg Attempt.done hwrite)
    -- A text that is not empty tells a file from a sink.
    obtain ⟨d', hwrite, hread⟩ := h "-"
    rw [writeDeep_eq, if_pos hmade, write?] at hwrite
    refine ⟨hmade, ?_⟩
    cases hplace : (d.wayTo path).disk.place? path with
    | none => simp [hplace] at hwrite
    | some p =>
      refine ⟨p, rfl, fun hfolder => ?_, fun hsink => ?_⟩
      · simp [hplace, hfolder] at hwrite
      · obtain rfl : (d.wayTo path).disk = d' := by simpa [hplace, hsink] using hwrite
        simp [readText?, find?, hplace, hsink] at hread

end Disk

namespace Keeper

open Settings (DigitsFit)

/-- **Saved settings are loaded again.** Settings that can be used are saved to a file that can be
written, and a new keeper of that file loads just these settings, whatever characters their texts
have. If the number of levels is too large for a document nothing is written. -/
theorem load_save {m : Keeper} {d : Disk} (hvalid : m.settings.IsValid)
    (hdigits : m.settings.DigitsFit) :
    (m.settings.book.maxLevels < twoTo 63 → d.Writable m.path →
      ∃ d', m.save d = ⟨d', .ok ()⟩ ∧
        (ofPath m.path).load d' = .ok ((ofPath m.path).holding m.settings)) ∧
    (twoTo 63 ≤ m.settings.book.maxLevels → m.save d = ⟨d, .error .unwritable⟩) := by
  constructor
  · intro hlevels hwritable
    have htext : m.settings.toDocument? = some (String.ofList m.settings.documentChars) :=
      if_pos hlevels
    obtain ⟨d', hwrite, hread⟩ :=
      Disk.writable_iff.mp hwritable (String.ofList m.settings.documentChars)
    refine ⟨d', ?_, load_of_offers ⟨_, hread, ?_, hvalid⟩⟩
    · rw [save, hvalid, htext]
      dsimp only
      rw [hwrite]
      rfl
    · exact Settings.ofDocument_of_toDocument? hdigits htext
  · intro hlevels
    have htext : m.settings.toDocument? = none := if_neg (Nat.not_lt.mpr hlevels)
    rw [save, hvalid, htext]

/-- Settings with quotes of both kinds, line ends, controls and a backslash in their texts, and with
numbers that have the greatest allowed size. -/
def demanding : Settings where
  system := ⟨"'''\"\"\"\n\r\t\\\x00\x7f", "\n"⟩
  book := { maxLevels := 9223372036854775807, totalDigits := 4294967295 }

/-- They are saved in a folder that is made for them and loaded again; with one level more they are
not saved. -/
theorem load_save_demanding :
    (∃ d', (Keeper.mk "conf/desk.toml" demanding true).save (Disk.ofHome []) = ⟨d', .ok ()⟩ ∧
      (ofPath "conf/desk.toml").load d' = .ok ⟨"conf/desk.toml", demanding, true⟩) ∧
    (Keeper.mk "conf/desk.toml" { demanding with book.maxLevels := twoTo 63 } true).save
      (Disk.ofHome []) = ⟨Disk.ofHome [], .error .unwritable⟩ := by
  have hwritable : (Disk.ofHome []).Writable "conf/desk.toml" :=
    ⟨by decide +kernel, ["conf", "desk.toml"], by decide +kernel, by decide +kernel,
      by decide +kernel⟩
  have hdigits : demanding.DigitsFit := by constructor <;> decide
  have hmore : DigitsFit { demanding with book.maxLevels := twoTo 63 } :=
    ⟨hdigits.bookPrice, hdigits.bookAmount, hdigits.bookTotal, hdigits.historyPrice,
      hdigits.historyTotal⟩
  constructor
  · exact (load_save (m := ⟨"conf/desk.toml", demanding, true⟩) (by decide +kernel) hdigits).1
      (by decide) hwritable
  · exact (load_save (m := ⟨"conf/desk.toml", { demanding with book.maxLevels := twoTo 63 }, true⟩)
      (by decide +kernel) hmore).2 (Nat.le_refl _)

end Keeper

end MarketDesk
