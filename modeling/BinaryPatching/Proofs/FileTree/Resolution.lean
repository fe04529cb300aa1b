import BinaryPatching.Proofs.FileTree.Directories
import BinaryPatching.Text.Lowercase
import Mathlib.Data.List.Infix

/-!
# `BinaryPatching.Proofs.FileTree.Resolution` — where the paths of a store lead

A path of a store is a list of parts, each of which is looked up in turn from the root. The parts come to a turn: so
many directories up from the root, and then down through some names. So the path leads below the root if it stays there
all along, or if it goes back down through the very directories that it went up.

## Contents
- `Path.names_resolve`, `FileTree.placeOf_resolve`: a path of a store under a root, part by part.
- `Path.Turn`, `Path.turn`, `Path.foldl_descend`: what its parts come to.
- `Path.Returns`, `Path.returns_of_not_mem`: when it leads below the place that it starts from.
- `FileTree.placeOf_isPrefix_iff`: when it leads below the root.
- `Path.leadAlike`, `Path.leadAlike_iff`: paths that lead to the same file, but for the case of letters.
- `Path.IsPlain`, `Path.equalIgnoringCase_of_leadAlike`: spellings that show it.
-/

namespace BinaryPatching

namespace Path

/-! ## The parts of a path of a store -/

/-- The parts of a path of a store are parts of a path of the tree. -/
theorem isPart_of_mem_parts {path part : String} (h : part ∈ parts path) : IsPart part := by
  obtain ⟨l, hl, rfl⟩ := List.mem_map.1 h
  obtain ⟨hsplit, hkept⟩ := List.mem_filter.1 hl
  constructor
  · rw [String.toList_ofList]
    rintro rfl
    cases hkept
  · rw [String.toList_ofList]
    intro hslash
    have hnot := Text.not_separator_of_mem_splitAt hsplit '/' hslash
    exact absurd hnot (by decide)

theorem names_foldl_join {root : String} {parts : List String} (h : ∀ part ∈ parts, IsPart part) :
    names (parts.foldl join root) = names root ++ parts := by
  induction parts generalizing root with
  | nil => exact (List.append_nil _).symm
  | cons part rest ih =>
    rw [List.foldl_cons, ih fun p hp => h p (List.mem_cons_of_mem _ hp), names_join (h part List.mem_cons_self),
      List.append_assoc, List.singleton_append]

theorem isAbsolute_foldl_join {root : String} {parts : List String} (h : ∀ part ∈ parts, IsPart part) :
    isAbsolute (parts.foldl join root) = isAbsolute root := by
  induction parts generalizing root with
  | nil => rfl
  | cons part rest ih =>
    rw [List.foldl_cons, ih fun p hp => h p (List.mem_cons_of_mem _ hp), isAbsolute_join (h part List.mem_cons_self)]

/-- **A path of a store under a root** has the parts of both. -/
theorem names_resolve (root path : String) : names (resolve root path) = names root ++ parts path :=
  names_foldl_join fun _ => isPart_of_mem_parts

/-- It begins where the root does. -/
theorem isAbsolute_resolve (root path : String) : isAbsolute (resolve root path) = isAbsolute root :=
  isAbsolute_foldl_join fun _ => isPart_of_mem_parts

end Path

namespace FileTree

/-- A separator at the end of a path leads nowhere. -/
theorem placeOf_eq (tree : FileTree) (path : String) :
    tree.placeOf path = (Path.names path).foldl descend (tree.startOf path) := by
  show (Path.components path).foldl descend (tree.startOf path) = _
  rw [Path.components_eq, List.foldl_append]
  split <;> rfl

/-- **The place of a path of a store** is reached from that of the root. -/
theorem placeOf_resolve (tree : FileTree) (root path : String) :
    tree.placeOf (Path.resolve root path) = (Path.parts path).foldl descend (tree.placeOf root) := by
  have hstart : tree.startOf (Path.resolve root path) = tree.startOf root := by
    unfold startOf
    rw [Path.isAbsolute_resolve]
  rw [placeOf_eq, placeOf_eq, Path.names_resolve, List.foldl_append, hstart]

end FileTree

namespace Path

/-! ## Turns -/

/-- **A turn**: some directories up, and then down again. -/
structure Turn where
  /-- How many directories it goes up. -/
  up : Nat
  /-- The names on the way down. -/
  down : List String
deriving Repr, DecidableEq

namespace Turn

/-- The turn that stays where it is. -/
def stay : Turn := ⟨0, []⟩

/-- A turn with one more part. -/
def step (t : Turn) (part : String) : Turn :=
  if part = "." then t
  else if part = ".." then if t.down = [] then ⟨t.up + 1, []⟩ else ⟨t.up, t.down.dropLast⟩
  else ⟨t.up, t.down ++ [part]⟩

/-- Where it leads to from a place. From the top there is no way up. -/
def leadsTo (t : Turn) (start : Place) : Place := start.take (start.length - t.up) ++ t.down

theorem leadsTo_stay (start : Place) : stay.leadsTo start = start := by
  unfold leadsTo stay
  rw [List.append_nil, Nat.sub_zero, List.take_length]

/-- **One more part** leads on from the end of the turn. -/
theorem leadsTo_step (t : Turn) (start : Place) (part : String) :
    (t.step part).leadsTo start = FileTree.descend (t.leadsTo start) part := by
  unfold step FileTree.descend
  split
  · rfl
  · split
    · split
      · -- Nothing is left on the way down, so it goes up one directory more, unless it is at the top.
        rename_i hdown
        unfold leadsTo
        dsimp only
        rw [hdown, List.append_nil, List.append_nil, List.dropLast_eq_take, List.take_take, List.length_take]
        congr 1
        omega
      · -- The last name on the way down is taken back.
        rename_i hdown
        unfold leadsTo
        rw [List.dropLast_append_of_ne_nil hdown]
    · unfold leadsTo
      rw [List.append_assoc]

/-- Only a component that leads up can take a turn further up. -/
theorem up_step_of_ne (t : Turn) {part : String} (h : part ≠ "..") : (t.step part).up = t.up := by
  unfold step
  rw [if_neg h]
  split <;> rfl

end Turn

/-- **The turn that some parts come to.** -/
def turn (parts : List String) : Turn := parts.foldl Turn.step .stay

/-- **Parts followed from a place** lead where their turn does. -/
theorem foldl_descend (parts : List String) (start : Place) :
    parts.foldl FileTree.descend start = (turn parts).leadsTo start := by
  induction parts using List.reverseRecOn with
  | nil => exact (Turn.leadsTo_stay start).symm
  | append_singleton rest part ih =>
    rw [turn, List.foldl_append, List.foldl_append]
    show FileTree.descend (rest.foldl FileTree.descend start) part = ((turn rest).step part).leadsTo start
    rw [ih, Turn.leadsTo_step]

/-- Two directories up lead out of the one that it went down to first. -/
example : turn ["b", "..", "..", ".", "d", "a"] = ⟨1, ["d", "a"]⟩ := by decide

/-- Parts among which none leads up do not go up. -/
theorem up_turn_of_not_mem {parts : List String} (h : ".." ∉ parts) : (turn parts).up = 0 := by
  induction parts using List.reverseRecOn with
  | nil => rfl
  | append_singleton rest part ih =>
    rw [List.mem_append, List.mem_singleton, not_or] at h
    rw [turn, List.foldl_append]
    exact (Turn.up_step_of_ne _ (Ne.symm h.2)).trans (ih h.1)

/-! ## Paths that lead below a place -/

/-- **A path returns** to a place when it goes down again through the directories that it went up from there. -/
def Returns (start : Place) (path : String) : Prop :=
  start.drop (start.length - (turn (parts path)).up) <+: (turn (parts path)).down

/-- A path that never goes up from a place need not return. -/
theorem returns_of_up_eq_zero {path : String} (h : (turn (parts path)).up = 0) (start : Place) :
    Returns start path := by
  unfold Returns
  rw [h, Nat.sub_zero, List.drop_length]
  exact List.nil_prefix

/-- Nor need one of which no part leads up. -/
theorem returns_of_not_mem {path : String} (h : ".." ∉ parts path) (start : Place) : Returns start path :=
  returns_of_up_eq_zero (up_turn_of_not_mem h) start

theorem isPrefix_leadsTo_iff {start : Place} {path : String} :
    start <+: (turn (parts path)).leadsTo start ↔ Returns start path := by
  unfold Turn.leadsTo Returns
  -- Both places begin with the directories that the turn does not leave.
  generalize start.length - (turn (parts path)).up = kept
  conv_lhs => lhs; rw [← List.take_append_drop kept start]
  exact List.prefix_append_right_inj _

end Path

/-- **A path of a store leads below the root** exactly if it returns there. -/
theorem FileTree.placeOf_isPrefix_iff (tree : FileTree) (root path : String) :
    tree.placeOf root <+: tree.placeOf (Path.resolve root path) ↔ Path.Returns (tree.placeOf root) path := by
  rw [placeOf_resolve, Path.foldl_descend, Path.isPrefix_leadsTo_iff]

namespace Path

/-! ## Paths that lead alike -/

open Text (equalIgnoringCase equalIgnoringCase_iff)

/-- **The trail of some parts**: those that lead anywhere, in small letters. -/
def trail (parts : List String) : List (List Char) :=
  (parts.filter (· ≠ ".")).map fun part => part.toList.map Char.toLower

theorem trail_append (as bs : List String) : trail (as ++ bs) = trail as ++ trail bs := by
  rw [trail, List.filter_append, List.map_append]
  rfl

/-- Whether two paths of a store have the same components below a root, but for the case of ASCII letters. -/
def leadAlike (root a b : String) : Bool := trail (names (resolve root a)) == trail (names (resolve root b))

/-- **Paths lead alike** below every root, or below none. -/
theorem leadAlike_iff {root a b : String} : leadAlike root a b = true ↔ trail (parts a) = trail (parts b) := by
  rw [leadAlike, beq_iff_eq, names_resolve, names_resolve, trail_append, trail_append, List.append_cancel_left_eq]

theorem leadAlike_refl (root path : String) : leadAlike root path path = true := beq_self_eq_true _

/-- **A plain spelling** of a path of a store: all its parts lead somewhere, and there is one separator between any
    two. -/
structure IsPlain (path : String) : Prop where
  /-- It is made up of its parts. -/
  toList_eq : path.toList = ['\\'].intercalate ((parts path).map String.toList)
  /-- None of them stays where it is. -/
  no_here : "." ∉ parts path

theorem map_intercalate (f : Char → Char) (separator : List Char) (parts : List (List Char)) :
    (separator.intercalate parts).map f = (separator.map f).intercalate (parts.map (List.map f)) := by
  induction parts with
  | nil => rfl
  | cons part rest ih =>
    cases rest with
    | nil => rw [List.intercalate_singleton, List.map_singleton, List.intercalate_singleton]
    | cons next rest =>
      rw [List.intercalate_cons_cons, List.map_append, List.map_append, ih]
      exact List.intercalate_cons_cons.symm

/-- In small letters a plain path is made up of its trail. -/
theorem IsPlain.map_toLower {path : String} (h : IsPlain path) :
    path.toList.map Char.toLower = ['\\'].intercalate (trail (parts path)) := by
  have hall : (parts path).filter (· ≠ ".") = parts path :=
    List.filter_eq_self.2 fun part hpart => decide_eq_true fun heq => h.no_here (heq ▸ hpart)
  rw [trail, hall]
  conv_lhs => rw [h.toList_eq, map_intercalate, List.map_map]
  rfl

/-- **Plain paths that lead alike** are spelled alike. -/
theorem equalIgnoringCase_of_leadAlike {root a b : String} (ha : IsPlain a) (hb : IsPlain b)
    (h : leadAlike root a b = true) : equalIgnoringCase a b = true := by
  rw [equalIgnoringCase_iff, ha.map_toLower, hb.map_toLower, leadAlike_iff.1 h]

end Path

end BinaryPatching
