import BinaryPatching.Proofs.Image.Mapping
import BinaryPatching.Proofs.Script.Moves
import BinaryPatching.Proofs.Script.WorkingCopy

/-!
# `BinaryPatching.Proofs.Script.PatchedRanges` — where the bytes of a patch go

Four commands put bytes at the cursor. They look up the file offset of the cursor alone: from there on the bytes go to
the file one after the other, and the section table has no say in where they end. So a byte is kept at its own address
just as long as the sections that map the addresses from the cursor on are shifted by the same distance. Behind the end
of the section the bytes go on into whatever comes next in the file.

## Contents
- `Image.Keeps`: the place in the file of the byte at an address.
- `Section.shift`, `Image.keeps_iff`: when consecutive bytes are at consecutive addresses.
- `OpenFile.PutAt`, `OpenFile.write_isOk_iff`: bytes put into a working copy.
- `Command.putsBytes`, `ScriptRun.payload?`, `ScriptRun.writes_perform`: the commands.
- `ScriptRun.perform_payload`: where their bytes go, with a write that leaves its section.
-/

namespace BinaryPatching

/-! ## Bytes at addresses -/

/-- **The byte at an address** is kept at a position of the file. Both are words, and the one is converted to the
other. -/
def Image.Keeps (image : Image) (address position : Nat) : Prop :=
  ∃ a o : UInt32, a.toNat = address ∧ o.toNat = position ∧ image.offsetOf a = .ok o

/-- The distance, as a word, from the addresses of a section to its file offsets. -/
def Section.shift (s : Section) : UInt32 := s.rawOffset - s.address

namespace Image

variable {image : Image} {s : Section} {cursor start : UInt32}

/-- The file offset of an address is the address, shifted by the section that maps it. -/
theorem offsetOf_eq_ok_iff_shift {a o : UInt32} :
    image.offsetOf a = .ok o ↔ ∃ s, image.sectionAt? a = some s ∧ o = a + s.shift := by
  unfold offsetOf Section.shift
  cases image.sectionAt? a with
  | none => simp
  | some s =>
    have hshift : s.rawOffset + (a - s.address) = a + (s.rawOffset - s.address) := by grind
    simp [hshift, eq_comm]

/-- **Consecutive bytes at consecutive addresses.** So many bytes behind the cursor the file still has the byte of the
address if neither is beyond the last word and the address is mapped by a section with the same shift. -/
theorem keeps_iff (hs : image.sectionAt? cursor = some s) (hstart : image.offsetOf cursor = .ok start) (k : Nat) :
    image.Keeps (cursor.toNat + k) (start.toNat + k) ↔
      start.toNat + k < 0x100000000 ∧
        ∃ a t, a.toNat = cursor.toNat + k ∧ image.sectionAt? a = some t ∧ t.shift = s.shift := by
  obtain ⟨r, hr, hstartr⟩ := offsetOf_eq_ok_iff_shift.1 hstart
  have hrs : r = s := Option.some.inj (hr.symm.trans hs)
  subst hrs
  have hadd : ∀ x y : UInt32, y.toNat = x.toNat + k → y = x + UInt32.ofNat k := by
    intro x y hy
    have hlt := y.toNat_lt
    apply UInt32.toNat_inj.1
    rw [UInt32.toNat_add, UInt32.toNat_ofNat', Nat.add_mod_mod, hy, Nat.mod_eq_of_lt (by omega)]
  constructor
  · rintro ⟨a, o, ha, ho, hoffset⟩
    obtain ⟨t, ht, hot⟩ := offsetOf_eq_ok_iff_shift.1 hoffset
    refine ⟨ho ▸ o.toNat_lt, a, t, ha, ht, ?_⟩
    have hak := hadd cursor a ha
    have hok := hadd start o ho
    grind
  · rintro ⟨hlt, a, t, ha, ht, hshift⟩
    have hk : (start + UInt32.ofNat k).toNat = start.toNat + k := by
      rw [UInt32.toNat_add, UInt32.toNat_ofNat', Nat.add_mod_mod, Nat.mod_eq_of_lt hlt]
    refine ⟨a, start + UInt32.ofNat k, ha, hk, offsetOf_eq_ok_iff_shift.2 ⟨t, ht, ?_⟩⟩
    have hak := hadd cursor a ha
    grind

end Image

/-! ## Bytes put into a working copy -/

/-- **Bytes put at an address** of an open file: from the offset of the address on, one after the other. -/
structure OpenFile.PutAt (f g : OpenFile) (place start : UInt32) (bytes : Bytes) : Prop where
  /-- They begin at the offset of the address. -/
  start_eq : f.image.offsetOf place = .ok start
  /-- They lie inside the file. -/
  inside : start.toNat + bytes.length ≤ f.data.length
  /-- Each stands as far behind the offset as it comes after the first. -/
  written : ∀ k < bytes.length, g.data[start.toNat + k]? = bytes[k]?
  /-- All other bytes stay. -/
  kept : ∀ p, p < start.toNat ∨ start.toNat + bytes.length ≤ p → g.data[p]? = f.data[p]?

/-- **A write succeeds** when the address is mapped and the bytes end inside the file. -/
theorem OpenFile.write_isOk_iff {f : OpenFile} {place : UInt32} {bytes : Bytes} :
    (∃ g, f.write place bytes = (.ok (), g)) ↔
      ∃ start, f.image.offsetOf place = .ok start ∧ start.toNat + bytes.length ≤ f.data.length := by
  unfold write
  cases f.image.offsetOf place with
  | error e => simp
  | ok start =>
    unfold writeOffset PatchLog.write Bytes.slice?
    by_cases hinside : start.toNat + bytes.length ≤ f.data.length
    · simp [hinside, Except.mapError]
    · simp [hinside, Except.mapError]

theorem OpenFile.putAt_of_write {f g : OpenFile} {place : UInt32} {bytes : Bytes}
    (h : f.write place bytes = (.ok (), g)) : ∃ start, f.PutAt g place start bytes := by
  unfold write at h
  cases hstart : f.image.offsetOf place with
  | error e =>
    rw [hstart] at h
    cases h
  | ok start =>
    rw [hstart] at h
    change f.writeOffset start bytes = _ at h
    rcases f.writeOffset_cases start bytes with ⟨replaced, hslice, hwrite⟩ | ⟨-, hwrite⟩ <;> rw [hwrite] at h <;> cases h
    have hinside := (Bytes.slice?_eq_some.1 hslice).1
    exact ⟨start, hstart, hinside, fun k hk => Bytes.getElem?_overwrite_inside hinside hk,
      fun p hp => Bytes.getElem?_overwrite_outside hinside hp⟩

/-! ## Commands -/

/-- The commands that put bytes at the cursor. -/
def Command.putsBytes : Command → Bool
  | .patchBytes _ | .patchText _ | .patchTextWide _ | .patchCode _ _ => true
  | _ => false

namespace ScriptRun

/-- **The bytes that a command puts at the cursor**: those it names, the codes of its text and a zero behind them, or
those that the assembler has for its code. -/
def payload? (r : ScriptRun) : Command → Option Bytes
  | .patchBytes bytes => some bytes
  | .patchText text => some (Bytes.ofText text ++ [0])
  | .patchTextWide text => some (Bytes.ofTextWide text ++ [0, 0])
  | .patchCode codeType body =>
    r.session.file.bind fun f =>
      (r.assembler.ask ⟨r.session.cursor, codeType, f.labelLines ++ body⟩).1.toOption
  | _ => none

/-- **What comes of a write**: it succeeds when there are bytes that can be put at the address, and then they are. -/
structure Writes (f : OpenFile) (place : UInt32) (payload : Option Bytes) (p : Progress ScriptRun) : Prop where
  /-- It succeeds when there are bytes that can be written. -/
  isOk_iff : (∃ t, p = (.ok (), t)) ↔ ∃ bytes, payload = some bytes ∧ ∃ g, f.write place bytes = (.ok (), g)
  /-- The open file is then the one that they were written to. -/
  file_eq : ∀ t, p = (.ok (), t) →
    ∃ bytes, payload = some bytes ∧ ∃ g, f.write place bytes = (.ok (), g) ∧ t.session.file = some g

theorem writes_none (f : OpenFile) (place : UInt32) (e : ExecutionError) (r : ScriptRun) :
    Writes f place none (.error e, r) where
  isOk_iff := by simp
  file_eq t ht := by cases ht

theorem writes_update {f : OpenFile} {place : UInt32} {bytes : Bytes} (r : ScriptRun) (s : Session)
    {next : Session → Session} (hnext : ∀ t, (next t).file = t.file) :
    Writes f place (some bytes)
      (r.update (((f.write place bytes).within s.putFile).andThen fun t => (.ok (), next t))) := by
  rcases hwrite : f.write place bytes with ⟨outcome, g⟩
  cases outcome with
  | error e =>
    refine ⟨?_, ?_⟩
    · simp [update, Progress.andThen, Progress.within, hwrite]
    · intro t ht
      cases ht
  | ok _ =>
    refine ⟨?_, ?_⟩
    · simp [update, Progress.andThen, Progress.within, hwrite]
    · intro t ht
      cases ht
      exact ⟨bytes, rfl, g, hwrite, hnext (s.putFile g)⟩

/-- **Commands that put bytes at the cursor** of an open file. -/
theorem writes_perform {r : ScriptRun} {f : OpenFile} (hopen : r.session.file = some f) {command : Command}
    (hputs : command.putsBytes) (config : Config) (script : Script) :
    Writes f r.session.cursor (r.payload? command) (r.perform config script command) := by
  have hdata : ∀ bytes what, Writes f r.session.cursor (some bytes)
      (r.update (r.session.withFile fun f => r.session.patchData f bytes what)) := by
    intro bytes what
    rw [Session.withFile, hopen]
    exact writes_update r r.session fun t => rfl
  cases command with
  | patchBytes bytes => exact hdata bytes "bytes"
  | patchText text => exact hdata _ "ASCII string"
  | patchTextWide text => exact hdata _ "Unicode string"
  | patchCode codeType body =>
    show Writes f r.session.cursor _ (r.assemble codeType body)
    unfold assemble
    rw [payload?, hopen, Option.bind_some]
    dsimp only
    cases hreply : (r.assembler.ask ⟨r.session.cursor, codeType, f.labelLines ++ body⟩).1 with
    | error e => exact writes_none f _ _ _
    | ok bytes => exact writes_update _ r.session fun t => rfl
  | _ => cases hputs

/-- **Where the bytes of a command go.** It succeeds when it has bytes, the cursor is mapped and the bytes end inside
the file. They then stand one after the other from the offset of the cursor on, and nothing else changes. Such a byte is
the one at its own address just when the section that maps the address has the same shift as that of the cursor, and
neither address nor offset is beyond the last word. -/
theorem perform_payload {r : ScriptRun} {f : OpenFile} (hopen : r.session.file = some f) {command : Command}
    (hputs : command.putsBytes) (config : Config) (script : Script) :
    ((∃ t, r.perform config script command = (.ok (), t)) ↔
        ∃ bytes start, r.payload? command = some bytes ∧ f.image.offsetOf r.session.cursor = .ok start ∧
          start.toNat + bytes.length ≤ f.data.length) ∧
      ∀ t, r.perform config script command = (.ok (), t) →
        ∃ bytes g s start, r.payload? command = some bytes ∧ t.session.file = some g ∧
          f.image.sectionAt? r.session.cursor = some s ∧ f.PutAt g r.session.cursor start bytes ∧
          ∀ k < bytes.length, f.image.Keeps (r.session.cursor.toNat + k) (start.toNat + k) ↔
            start.toNat + k < 0x100000000 ∧ ∃ a u, a.toNat = r.session.cursor.toNat + k ∧
              f.image.sectionAt? a = some u ∧ u.shift = s.shift := by
  obtain ⟨hisOk, hfile⟩ := writes_perform hopen hputs config script
  refine ⟨?_, ?_⟩
  · simp only [hisOk, OpenFile.write_isOk_iff, exists_and_left]
  · intro t ht
    obtain ⟨bytes, hbytes, g, hwrite, hg⟩ := hfile t ht
    obtain ⟨start, hput⟩ := OpenFile.putAt_of_write hwrite
    obtain ⟨s, hs, _⟩ := Image.offsetOf_eq_ok_iff_shift.1 hput.start_eq
    exact ⟨bytes, g, s, start, hbytes, hg, hs, hput, fun k _ => Image.keeps_iff hs hput.start_eq k⟩

/-- An image with two sections of two bytes each, side by side in the file and far from each other in memory. -/
def twoSections : Image :=
  ((Image.blank [0, 0, 0, 0] 0x1000).withSection (.new ".text" 0x1000 0 2 Section.codeFlag)).withSection
    (.new ".data" 0x2000 2 2 Section.dataFlag)

/-- A run in which that image is open, with the cursor on its first address. -/
def twoSectionsRun : ScriptRun :=
  ⟨{ Session.start .empty with file := some (.start "a" "a" twoSections .empty), cursor := 0x1000 }, ⟨[], []⟩,
    .failing .notConfigured⟩

/-- Four bytes are written there. The second one is at the next address, the third one is not. -/
theorem perform_payload_twoSections :
    twoSectionsRun.session.file = some (.start "a" "a" twoSections .empty) ∧
      (Command.patchBytes [1, 2, 3, 4]).putsBytes = true ∧
      ∃ t g, twoSectionsRun.perform .standard ⟨[], []⟩ (.patchBytes [1, 2, 3, 4]) = (.ok (), t) ∧
        t.session.file = some g ∧
        (OpenFile.start "a" "a" twoSections .empty).PutAt g 0x1000 0 [1, 2, 3, 4] ∧
        twoSections.Keeps 0x1001 1 ∧ ¬twoSections.Keeps 0x1002 2 := by
  have hputs : (Command.patchBytes [1, 2, 3, 4]).putsBytes = true := rfl
  have hok : ∃ t, twoSectionsRun.perform .standard ⟨[], []⟩ (.patchBytes [1, 2, 3, 4]) = (.ok (), t) := ⟨_, rfl⟩
  obtain ⟨t, ht⟩ := hok
  obtain ⟨bytes, g, s, start, hbytes, hg, hs, hput, hkeeps⟩ :=
    (perform_payload (r := twoSectionsRun) rfl hputs .standard ⟨[], []⟩).2 t ht
  obtain rfl : [1, 2, 3, 4] = bytes := Option.some.inj hbytes
  obtain rfl : 0 = start := Except.ok.inj (hput.start_eq.symm.trans rfl).symm
  obtain rfl : Section.new ".text" 0x1000 0 2 Section.codeFlag = s := Option.some.inj (hs.symm.trans rfl).symm
  refine ⟨rfl, hputs, t, g, ht, hg, hput, ?_, ?_⟩
  · exact (hkeeps 1 (by decide)).2 ⟨by decide, 0x1001, _, by decide, rfl, rfl⟩
  · intro h
    obtain ⟨_, a, u, ha, hu, _⟩ := (hkeeps 2 (by decide)).1 h
    obtain rfl : 0x1002 = a := UInt32.toNat_inj.1 ha.symm
    cases hu

/-- **Bytes do not stay where the cursor is mapped.** The write takes place, and its third byte is not the one two
addresses behind the cursor. -/
theorem not_payload_keeps :
    ¬(∀ (config : Config) (script : Script) (r t : ScriptRun) (f : OpenFile) (command : Command),
      r.session.file = some f → command.putsBytes → r.perform config script command = (.ok (), t) →
        ∃ bytes g start, r.payload? command = some bytes ∧ t.session.file = some g ∧
          f.PutAt g r.session.cursor start bytes ∧
          ∀ k < bytes.length, f.image.Keeps (r.session.cursor.toNat + k) (start.toNat + k)) := by
  intro h
  obtain ⟨bytes, _, start, hbytes, _, hput, hkeeps⟩ :=
    h .standard ⟨[], []⟩ twoSectionsRun _ _ (.patchBytes [1, 2, 3, 4]) rfl rfl rfl
  obtain rfl : [1, 2, 3, 4] = bytes := Option.some.inj hbytes
  obtain ⟨a, _, ha, _, hoffset⟩ := hkeeps 2 (by decide)
  obtain rfl : 0x1002 = a := UInt32.toNat_inj.1 ha.symm
  cases hoffset

end ScriptRun

end BinaryPatching
