import BinaryPatching.Code.Literals
import BinaryPatching.Code.Map
import BinaryPatching.Code.Pairs
import BinaryPatching.Thumb.Decode

/-!
# `BinaryPatching.Code.Flow` — finding the code of an image

Code is found by following it: from the entry point, the symbols and the functions of the exception table,
instructions are decoded one after the other, and the targets of their branches are followed in turn. Addresses
are taken up in the order in which they were first met, and none is taken up twice.

On its way the search asks for the file offsets of the words that the code loads. Where sums are checked for overflow,
an offset that does not fit into a word puts an end to it; where they are not, the offset wraps around and the search
goes on.

## Contents
- `Exploration`: the code found so far, and the addresses met.
- `Exploration.meet`, `Exploration.record`, `Exploration.follow`: one address, one instruction, one run.
- `Exploration.length_met_le`: no more addresses can be met than there are, so the search ends.
- `explore`, `Image.code`: the code of an image.
- `analyze`: the same where sums are checked.
-/

namespace BinaryPatching

open Thumb

/-! ## Distinct addresses are few -/

/-- Distinct numbers below a bound are no more than the bound. -/
theorem length_le_of_nodup_of_lt {n : Nat} {l : List Nat} (hd : l.Nodup) (hl : ∀ x ∈ l, x < n) : l.length ≤ n := by
  induction n generalizing l with
  | zero =>
    cases l with
    | nil => simp
    | cons x rest => exact absurd (hl x (by simp)) (by omega)
  | succ n ih =>
    by_cases hn : n ∈ l
    · have he : (l.erase n).length ≤ n := by
        refine ih (hd.erase n) fun x hx => ?_
        have := hl x (List.mem_of_mem_erase hx)
        have hne : x ≠ n := fun h => by
          subst h
          exact absurd hx (hd.not_mem_erase)
        omega
      rw [List.length_erase_of_mem hn] at he
      omega
    · have := ih hd fun x hx => by
        have := hl x hx
        have hne : x ≠ n := fun h => hn (h ▸ hx)
        omega
      omega

/-- Distinct words are no more than there are words. -/
theorem length_le_of_nodup_words {l : List UInt32} (hd : l.Nodup) : l.length ≤ 0x100000000 := by
  have h := length_le_of_nodup_of_lt (n := 0x100000000) (l := l.map UInt32.toNat)
    (List.pairwise_map.2 (List.Pairwise.imp (fun hne he => hne (UInt32.toNat_inj.1 he)) hd)) (by
      intro x hx
      obtain ⟨a, _, rfl⟩ := List.mem_map.1 hx
      exact a.toNat_lt)
  simpa using h

/-! ## Explorations -/

/-- The state of a search for code. -/
structure Exploration where
  /-- The code found so far. -/
  code : CodeMap
  /-- The addresses met, in the order of meeting. -/
  met : List UInt32
  /-- Every address is met once. -/
  distinct : met.Nodup
  /-- How many of the addresses met have been taken up. -/
  done : Nat
  /-- The number of runs decoded. -/
  runs : Nat
  /-- The number of addresses met that lie outside code. -/
  dropped : Nat
  /-- The number of pairs joined. -/
  joined : Nat
  /-- The number of literals shown in place of an operand. -/
  literals : Nat
  /-- The number of literals whose file offset does not fit into a word. -/
  overflows : Nat

namespace Exploration

/-- The start of a search. -/
def start : Exploration := ⟨.empty, [], List.nodup_nil, 0, 0, 0, 0, 0, 0⟩

/-- Whether an address is the second half of a joined pair. Nothing else takes eight bytes. -/
def isSecondHalf (e : Exploration) (address : UInt32) : Bool :=
  match e.code.get? (address - 4) with
  | some i => i.bytes.length == 8
  | none => false

/-- Whether an address is known as that of an instruction. -/
def knows (e : Exploration) (address : UInt32) : Bool := e.code.contains address || e.isSecondHalf address

/-- The search after meeting an address. One that is known or was met before changes nothing. -/
def meet (e : Exploration) (address : UInt32) : Exploration :=
  if h : e.knows address = false ∧ address ∉ e.met then
    { e with
      met := e.met ++ [address]
      distinct := List.nodup_append.2 ⟨e.distinct, by simp, fun a ha b hb hab => by
        rw [List.mem_singleton] at hb
        exact h.2 (hb ▸ hab ▸ ha)⟩ }
  else e

/-- The search with an instruction of a run entered, and its branch target met if it lies outside the run, which
    reaches from `first` to `stop`. -/
def record (image : Image) (s : Section) (first stop : UInt32) (e : Exploration) (i : Instruction) :
    Exploration :=
  let resolved := withLiteral? image s i
  let overflows := literalOverflows image s i
  let i := resolved.getD i
  let e := { e with
    code := e.code.insert i
    literals := e.literals + (if resolved.isSome then 1 else 0)
    overflows := e.overflows + (if overflows then 1 else 0) }
  match i.branchTarget with
  | some target =>
    let target := evenPart target
    if target < first ∨ stop ≤ target then e.meet target else e
  | none => e

/-- The search after the run of code that starts at an address of a section. -/
def follow (image : Image) (s : Section) (address : UInt32) (e : Exploration) : Exploration :=
  let run := decodeUntil e.knows (image.sectionBytes s) s.address address
  let entries := joinPairs (run.instructions.map Instruction.withPlainRegisters)
  let e := entries.foldl (record image s address run.stop) e
  { e with runs := e.runs + 1, joined := e.joined + (run.instructions.length - entries.length) }

/-- The search after an address that was met has been taken up. -/
def visit (image : Image) (e : Exploration) (address : UInt32) : Exploration :=
  if e.knows address then e
  else
    match image.sectionAt? address with
    | some s => if s.isCode then e.follow image s address else { e with dropped := e.dropped + 1 }
    | none => { e with dropped := e.dropped + 1 }

/-- No more addresses are met than there are. -/
theorem length_met_le (e : Exploration) : e.met.length ≤ 0x100000000 := length_le_of_nodup_words e.distinct

/-- The search carried on until all addresses met have been taken up. -/
def run (image : Image) (e : Exploration) : Exploration :=
  match _h : e.met[e.done]? with
  | none => e
  | some address => run image { e.visit image address with done := e.done + 1 }
termination_by 0x100000000 - e.done
decreasing_by
  have h1 : e.done < e.met.length := (List.getElem?_eq_some_iff.1 _h).1
  have h2 := e.length_met_le
  omega

end Exploration

/-- The addresses at which the search for code begins. -/
def seeds (image : Image) : List UInt32 :=
  (image.entry :: (image.exports ++ image.imports ++ image.runtimeFunctions).map (·.address)).map evenPart

/-- The search for the code of an image, carried to its end. -/
def explore (image : Image) : Exploration := ((seeds image).foldl Exploration.meet Exploration.start).run image

/-- The code of an image. -/
def Image.code (image : Image) : CodeMap := (explore image).code

/-- The search where sums are checked for overflow: it comes to nothing if the file offset of a literal does not fit
    into a word. -/
def analyze (image : Image) : Option Exploration :=
  let e := explore image
  if e.overflows = 0 then some e else none

end BinaryPatching
