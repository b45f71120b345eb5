/-
Splitting a string into tokens, from `libc/common/string.c`.  A cursor is kept
from call to call; the pass that should skip delimiters gives up at the first
character that is not one.
-/
import Mathlib.Data.List.TakeWhile

namespace Merlon.Strtok

open List

/-- The string that is split, without its terminator, and the static
`saved_pointer` of `strtok` into it. -/
structure Cursor where
  chars : List UInt8
  savedPointer : Option Nat

/-- The first pass, over what is left from a position on: the token it leaves,
or nothing when it gives up. -/
def skipPass (delim : List UInt8) : Option Nat → Nat → List UInt8 → Option (Option Nat)
  | token, _, [] => some token
  | token, i, char :: rest =>
    if char = 0 then some token
    else if char ∈ delim then skipPass delim (some i) (i + 1) rest
    else none

/-- The second pass: the position of the first delimiter. -/
def scanPass (delim : List UInt8) : Nat → List UInt8 → Option Nat
  | _, [] => none
  | i, char :: rest =>
    if char = 0 then none else if char ∈ delim then some i else scanPass delim (i + 1) rest

def strtok (s : Option (List UInt8)) (delim : List UInt8) (cursor : Cursor) :
    Option Nat × Cursor :=
  let start := s.elim cursor fun chars => ⟨chars, some 0⟩
  match start.savedPointer with
  | none => (none, start)
  | some saved =>
    match skipPass delim none saved (start.chars.drop saved) with
    | none => (none, { start with savedPointer := none })
    | some token =>
      match scanPass delim saved (start.chars.drop saved) with
      | some i => (token, ⟨start.chars.set i 0, some (i + 1)⟩)
      | none => (token, { start with savedPointer := none })

/-- What the caller finds at a token: its position and its text. -/
def Cursor.found (cursor : Cursor) (token : Nat) : Nat × List UInt8 :=
  (token, (cursor.chars.drop token).takeWhile (· ≠ 0))

/-- The results of calls with `s` and then with `NULL`, one for each set of
delimiters. -/
def calls (s : Option (List UInt8)) :
    List (List UInt8) → Cursor → List (Option (Nat × List UInt8))
  | [], _ => []
  | delim :: delims, cursor =>
    let result := strtok s delim cursor
    result.1.map result.2.found :: calls none delims result.2

/-- The tokens a string has from a position on: what is between the delimiters
of each call, and nothing after the last. -/
def tokens : List (List UInt8) → Nat → List UInt8 → List (Option (Nat × List UInt8))
  | [], _, _ => []
  | delim :: delims, i, rest =>
    let after := rest.dropWhile (· ∈ delim)
    let text := after.takeWhile (· ∉ delim)
    let start := i + (rest.length - after.length)
    if text = [] then (delim :: delims).map fun _ => none
    else some (start, text) ::
      tokens delims (start + text.length + 1) (after.drop (text.length + 1))

lemma calls_null (delims : List (List UInt8)) (chars : List UInt8) :
    calls none delims ⟨chars, none⟩ = delims.map fun _ => none := by
  induction delims with
  | nil => rfl
  | cons delim delims ih => exact congrArg (none :: ·) ih

section

variable {delim : List UInt8} {token : Option Nat} {i : Nat} {rest : List UInt8}

lemma skipPass_of_notMem (hzero : 0 ∉ rest) {char : UInt8} (hchar : char ∈ rest)
    (hdelim : char ∉ delim) : skipPass delim token i rest = none := by
  induction rest generalizing token i with
  | nil => cases hchar
  | cons head rest ih =>
    rw [mem_cons, not_or] at hzero
    rw [skipPass, if_neg (Ne.symm hzero.1)]
    split
    · rename_i hhead
      rcases mem_cons.mp hchar with rfl | hrest
      · exact absurd hhead hdelim
      · exact ih hzero.2 hrest
    · rfl

lemma skipPass_of_forall_mem (hzero : 0 ∉ rest) (hdelim : ∀ char ∈ rest, char ∈ delim) :
    skipPass delim (some i) (i + 1) rest = some (some (i + rest.length)) := by
  induction rest generalizing i with
  | nil => rfl
  | cons head rest ih =>
    rw [mem_cons, not_or] at hzero
    rw [forall_mem_cons] at hdelim
    rw [skipPass, if_neg (Ne.symm hzero.1), if_pos hdelim.1, ih hzero.2 hdelim.2,
      length_cons, Nat.add_assoc, Nat.add_comm 1]

end

/-- The first call on a string that is not empty gives a token exactly when the
string has none. -/
lemma strtok_eq_none_iff {chars : List UInt8} (hzero : 0 ∉ chars) (hchars : chars ≠ [])
    (delim : List UInt8) (cursor : Cursor) :
    (strtok (some chars) delim cursor).1 = none ↔ ¬ ∀ char ∈ chars, char ∈ delim := by
  unfold strtok
  dsimp only [Option.elim_some]
  rw [drop_zero]
  by_cases hdelim : ∀ char ∈ chars, char ∈ delim
  · refine iff_of_false ?_ (not_not_intro hdelim)
    obtain ⟨head, rest, rfl⟩ := exists_cons_of_ne_nil hchars
    rw [mem_cons, not_or] at hzero
    rw [forall_mem_cons] at hdelim
    rw [skipPass, if_neg (Ne.symm hzero.1), if_pos hdelim.1,
      skipPass_of_forall_mem hzero.2 hdelim.2]
    dsimp only
    split <;> exact Option.some_ne_none _
  · refine iff_of_true ?_ hdelim
    simp only [not_forall] at hdelim
    obtain ⟨char, hchar, hnot⟩ := hdelim
    rw [skipPass_of_notMem hzero hchar hnot]

lemma tokens_head?_eq (delim : List UInt8) (delims : List (List UInt8)) (i : Nat)
    (rest : List UInt8) : (tokens (delim :: delims) i rest).head? = some none ↔ ∀ char ∈ rest,
    char ∈ delim := by
  have hall : (∀ char ∈ rest, char ∈ delim) ↔ rest.dropWhile (· ∈ delim) = [] := by
    simp
  rw [hall, tokens]
  cases hafter : rest.dropWhile (· ∈ delim) with
  | nil => exact iff_of_true rfl rfl
  | cons char after =>
    have hhead := head?_dropWhile_not (· ∈ delim) rest
    simp only [hafter, head?_cons] at hhead
    simp [hhead]

/-- The calls give the tokens of the empty string only. -/
theorem calls_tokens_iff (chars delim : List UInt8) (delims : List (List UInt8)) (cursor : Cursor)
    (hzero : 0 ∉ chars) : calls (some chars) (delim :: delims) cursor = tokens
    (delim :: delims) 0 chars ↔ chars = [] := by
  constructor
  · intro h
    by_contra hchars
    have hfirst := tokens_head?_eq delim delims 0 chars
    rw [← h, calls, head?_cons, Option.some_inj, Option.map_eq_none_iff,
      strtok_eq_none_iff hzero hchars] at hfirst
    exact not_iff_self hfirst
  · rintro rfl
    exact congrArg (none :: ·) (calls_null delims [])

theorem calls_tokens_empty :
    0 ∉ ([] : List UInt8) ∧ calls (some []) [[44], [44]] ⟨[], none⟩ = tokens [[44], [44]] 0 [] :=
  ⟨List.not_mem_nil, (calls_tokens_iff [] [44] [[44]] ⟨[], none⟩ List.not_mem_nil).mpr rfl⟩

/-- The string "ab" split at commas gives no token. -/
theorem strtok_no_token : calls (some [97, 98]) [[44]] ⟨[], none⟩ = [none] ∧ tokens [[44]] 0
    [97, 98] = [some (0, [97, 98])] := by
  decide

end Merlon.Strtok
