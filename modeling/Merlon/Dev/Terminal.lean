/-
The line discipline of pseudoterminals, from `kernel/dev/pty.c`.  The line
processor takes one keystroke at a time, echoes it, edits the line buffer and
hands the line over at a terminator.  The structure with the line buffer comes
from the heap as it is, and the line processor is made before the structures
are in place.
-/
import Merlon.Library.Outcome
import Mathlib.Data.List.Basic
import Mathlib.Data.List.Range
import Mathlib.Logic.Function.Basic

namespace Merlon.Terminals

open Bool Terminals

open List

open Function (update update_self update_of_ne)

def lineBufferSize : Nat := 300

def backspace : UInt8 := 8

def newline : UInt8 := 10

def ctrlC : UInt8 := 3

def ctrlQ : UInt8 := 17

def ctrlZ : UInt8 := 26

/-- The keys that end a line. -/
def terminates (c : UInt8) : Bool :=
  c == newline || c == ctrlC || c == ctrlQ || c == ctrlZ

/-- An access outside the line buffer, or to data that is not there yet. -/
inductive Fault where
  | outOfBounds
  | nullData
  deriving DecidableEq, Repr

inductive Signal where
  | sigint
  | sigcont
  | sigstop
  deriving DecidableEq, Repr

/-- `struct sub_data`; `echo` and `canon` are the flags of `termios`. -/
structure SubData where
  lineBuffer : Nat → UInt8
  lineBufferPos : Int
  echo : Bool
  canon : Bool

/-- A terminal with what went to its display, to the readers of the
subordinate, and to the controlling process group. -/
structure Terminal where
  internal : SubData
  displayBuffer : List UInt8
  flushedBuffer : List UInt8
  signals : List Signal

namespace Terminal

/-- `CreatePseudoTerminal` with a `struct sub_data` from the heap; `early` says
whether the line processor runs before the data is in place. -/
def createPseudoTerminal (early : Bool) (heap : SubData) : Except Fault Terminal :=
  if early then .error .nullData
  else .ok
    { internal := { heap with echo := true, canon := true }
      displayBuffer := []
      flushedBuffer := []
      signals := [] }

/-- The line typed so far. -/
def contents (t : Terminal) : List UInt8 :=
  (range t.internal.lineBufferPos.toNat).map t.internal.lineBuffer

def flushSubordinateLineBuffer (t : Terminal) : Except Fault Terminal :=
  if t.internal.lineBufferPos ≤ lineBufferSize then
    .ok { t with
      flushedBuffer := t.flushedBuffer ++ t.contents
      internal := { t.internal with lineBufferPos := 0 } }
  else .error .outOfBounds

def removeFromSubordinateLineBuffer (t : Terminal) : Except Fault Terminal :=
  let pos := t.internal.lineBufferPos
  if pos = 0 then .ok t
  else if 0 < pos ∧ pos ≤ lineBufferSize then
    .ok { t with
      internal := { t.internal with
        lineBuffer := update t.internal.lineBuffer (pos - 1).toNat 0
        lineBufferPos := pos - 1 } }
  else .error .outOfBounds

def addToSubordinateLineBuffer (t : Terminal) (c : UInt8) : Except Fault Terminal :=
  let pos := t.internal.lineBufferPos
  if pos = lineBufferSize then .ok t
  else if 0 ≤ pos ∧ pos < lineBufferSize then
    .ok { t with
      internal := { t.internal with
        lineBuffer := update t.internal.lineBuffer pos.toNat c
        lineBufferPos := pos + 1 } }
  else .error .outOfBounds

/-- What the line processor sends to the display for a keystroke. -/
def echoed (t : Terminal) (c : UInt8) : List UInt8 :=
  if t.internal.echo then
    if c = backspace ∧ t.internal.canon then
      if 0 < t.internal.lineBufferPos then [backspace, 32, backspace] else []
    else [c]
  else []

/-- The signal that a terminator raises. -/
def signalOf (c : UInt8) : List Signal :=
  if c = ctrlC then [.sigint]
  else if c = ctrlQ then [.sigcont]
  else if c = ctrlZ then [.sigstop]
  else []

/-- One round of the loop of `LineProcessor`. -/
def lineProcessor (t : Terminal) (c : UInt8) : Except Fault Terminal := do
  let shown := { t with displayBuffer := t.displayBuffer ++ t.echoed c }
  let edited ←
    if c = backspace ∧ t.internal.canon then
      shown.removeFromSubordinateLineBuffer
    else shown.addToSubordinateLineBuffer c
  if terminates c || !t.internal.canon then
    flushSubordinateLineBuffer { edited with signals := edited.signals ++ signalOf c }
  else .ok edited

/-- Keystrokes one after another. -/
def typeKeys (t : Terminal) : List UInt8 → Except Fault Terminal
  | [] => .ok t
  | c :: rest => do
      let next ← t.lineProcessor c
      next.typeKeys rest

end Terminal

/-! What a line discipline is for. -/

/-- What was handed over and the line typed since, after one more key. -/
def edit (typed : List UInt8 × List UInt8) (c : UInt8) : List UInt8 × List UInt8 :=
  if c = backspace then (typed.1, typed.2.dropLast)
  else if terminates c then
    (typed.1 ++ typed.2.take lineBufferSize ++ [c], [])
  else (typed.1, typed.2 ++ [c])

/-- What is handed over for some keys, and the line typed since. -/
def lines (keys : List UInt8) : List UInt8 × List UInt8 :=
  keys.foldl edit ([], [])

/-- `Shows out line`: the output leaves `line` on the current line of the
screen.  A backspace, a blank and a backspace erase one character of it. -/
inductive Shows : List UInt8 → List UInt8 → Prop
  | blank : Shows [] []
  | char {out line : List UInt8} {c : UInt8} (before : Shows out line)
      (hc : c ≠ backspace) (hends : terminates c = false) : Shows (out ++ [c]) (line ++ [c])
  | erase {out line : List UInt8} {c : UInt8} (before : Shows out (line ++ [c])) :
      Shows (out ++ [backspace, 32, backspace]) line
  | terminator {out line : List UInt8} {c : UInt8} (before : Shows out line)
      (hends : terminates c = true) : Shows (out ++ [c]) []

/-- After every key the readers have been given the lines that were ended, the
screen shows the line buffer, and its position is one. -/
def Disciplined (early : Bool) (heap : SubData) (keys : List UInt8) : Prop :=
  ∀ typed, typed ≠ [] → typed <+: keys → ∃ t, (do
        let t ← Terminal.createPseudoTerminal early heap
        t.typeKeys typed) = .ok t ∧
      t.flushedBuffer = (lines typed).1 ∧
      Shows t.displayBuffer t.contents ∧
      0 ≤ t.internal.lineBufferPos ∧
      t.internal.lineBufferPos ≤ (lineBufferSize : Int)

/-- No key but a backspace comes when the line is as long as the buffer. -/
def Fits (keys : List UInt8) : Prop :=
  ∀ typed c, typed ++ [c] <+: keys → c ≠ backspace → (lines typed).2.length < lineBufferSize

section Screen

variable {out line line' : List UInt8} {c : UInt8}

lemma Shows.eq_nil (h : Shows [] line) : line = [] := by
  generalize hout : ([] : List UInt8) = out at h
  cases h with
  | blank => rfl
  | char _ _ _ => exact absurd hout.symm (by simp)
  | erase _ => exact absurd hout.symm (by simp)
  | terminator _ _ => exact absurd hout.symm (by simp)

/-- What one more character leaves on the screen. -/
lemma Shows.of_char (h : Shows (out ++ [c]) line) (hc : c ≠ backspace) :
    if terminates c then line = []
    else ∃ before, Shows out before ∧ line = before ++ [c] := by
  generalize hout : out ++ [c] = all at h
  cases h with
  | blank => exact absurd hout (by simp)
  | char before hc' hends =>
    obtain ⟨rfl, hsame⟩ := append_inj' hout rfl
    cases hsame
    rw [if_neg (by rw [hends]; exact false_ne_true)]
    exact ⟨_, before, rfl⟩
  | @erase out' _ _ before =>
    have hsplit : out ++ [c] = (out' ++ [backspace, 32]) ++ [backspace] := by
      rw [hout, append_assoc]
      rfl
    obtain ⟨_, hsame⟩ := append_inj' hsplit rfl
    cases hsame
    exact absurd rfl hc
  | terminator before hends =>
    obtain ⟨rfl, hsame⟩ := append_inj' hout rfl
    cases hsame
    rw [if_pos hends]

/-- What was on the screen before a character was erased. -/
lemma Shows.of_erase (h : Shows (out ++ [backspace, 32, backspace]) line) :
    ∃ last, Shows out (line ++ [last]) := by
  generalize hout : out ++ [backspace, 32, backspace] = all at h
  have hsplit : (out ++ [backspace, 32]) ++ [backspace] = all := by
    rw [← hout, append_assoc]
    rfl
  cases h with
  | blank => exact absurd hout (by simp)
  | char _ hc _ =>
    obtain ⟨_, hsame⟩ := append_inj' hsplit rfl
    cases hsame
    exact absurd rfl hc
  | erase before =>
    obtain ⟨rfl, _⟩ := append_inj' hout rfl
    exact ⟨_, before⟩
  | terminator _ hends =>
    obtain ⟨_, hsame⟩ := append_inj' hsplit rfl
    cases hsame
    cases hends

/-- The output leaves one line on the screen. -/
lemma Shows.unique (h : Shows out line) (h' : Shows out line') : line = line' := by
  induction h generalizing line' with
  | blank => exact h'.eq_nil.symm
  | char before hc hends ih =>
    have hafter := h'.of_char hc
    rw [if_neg (by rw [hends]; exact false_ne_true)] at hafter
    obtain ⟨shown, hshown, rfl⟩ := hafter
    rw [ih hshown]
  | erase before ih =>
    obtain ⟨last, hlast⟩ := h'.of_erase
    exact (append_inj' (ih hlast) rfl).1
  | terminator before hends ih =>
    rename_i out line c
    have hc : c ≠ backspace := by
      rintro rfl
      cases hends
    have hafter := h'.of_char hc
    rw [if_pos hends] at hafter
    exact hafter.symm

end Screen

section Buffer

variable {f : Nat → UInt8} {n m : Nat}

lemma map_range_update (h : n ≤ m) (c : UInt8) :
    (range n).map (update f m c) = (range n).map f := by
  refine map_congr_left fun i hi => update_of_ne ?_ ..
  have hless := mem_range.mp hi
  omega

lemma map_range_succ_update (c : UInt8) :
    (range (n + 1)).map (update f n c) = (range n).map f ++ [c] := by
  rw [range_succ, map_append, map_range_update (Nat.le_refl n), map_singleton, update_self]

end Buffer

namespace Terminal

variable {t t' : Terminal} {typed : List UInt8 × List UInt8} {c : UInt8}

/-- The terminal has handed over and holds what was typed. -/
structure Holds (t : Terminal) (typed : List UInt8 × List UInt8) : Prop where
  echo : t.internal.echo = true
  canon : t.internal.canon = true
  pos : t.internal.lineBufferPos = typed.2.length
  fits : typed.2.length ≤ lineBufferSize
  contents : t.contents = typed.2
  flushed : t.flushedBuffer = typed.1
  shown : Shows t.displayBuffer typed.2

lemma Holds.backspace (h : t.Holds typed) :
    ∃ t', t.lineProcessor backspace = .ok t' ∧ t'.Holds (edit typed backspace) := by
  obtain ⟨delivered, line⟩ := typed
  have hpos := h.pos
  have hends : (terminates backspace || !t.internal.canon) = false := by
    rw [h.canon]
    rfl
  have hedit : edit (delivered, line) backspace = (delivered, line.dropLast) := if_pos rfl
  unfold lineProcessor
  dsimp only
  rw [if_pos ⟨rfl, h.canon⟩, hends, hedit]
  rcases eq_nil_or_concat line with rfl | ⟨rest, last, rfl⟩
  · have hzero : t.internal.lineBufferPos = 0 := hpos
    have hechoed : t.echoed backspace = [] := by
      unfold echoed
      rw [if_pos h.echo, if_pos ⟨rfl, h.canon⟩, if_neg (by omega)]
    unfold removeFromSubordinateLineBuffer
    dsimp only
    rw [if_pos hzero, hechoed, append_nil]
    exact ⟨t, rfl, h⟩
  · rw [concat_eq_append] at h hpos ⊢
    rw [length_append, length_singleton] at hpos
    have hfits := h.fits
    rw [length_append, length_singleton] at hfits
    have hechoed : t.echoed backspace = [backspace, 32, backspace] := by
      unfold echoed
      rw [if_pos h.echo, if_pos ⟨rfl, h.canon⟩, if_pos (by omega)]
    unfold removeFromSubordinateLineBuffer
    dsimp only
    rw [if_neg (by omega), if_pos (by omega), hechoed, dropLast_concat]
    refine ⟨_, rfl, h.echo, h.canon, ?_, Nat.le_of_succ_le hfits, ?_, h.flushed, h.shown.erase⟩
    · dsimp only
      omega
    · have hcontents := h.contents
      unfold Terminal.contents at hcontents ⊢
      dsimp only
      have hprev : (t.internal.lineBufferPos - 1).toNat = rest.length := by omega
      have hnow : t.internal.lineBufferPos.toNat = rest.length + 1 := by omega
      rw [hnow, range_succ, map_append] at hcontents
      rw [hprev, map_range_update (Nat.le_refl _)]
      exact (append_inj' hcontents rfl).1

/-- A key other than a backspace is echoed and, if there is room, added. -/
lemma Holds.add (h : t.Holds typed) (hc : c ≠ Terminals.backspace)
    (hroom : typed.2.length < lineBufferSize) : t.lineProcessor c = (if terminates c then
      flushSubordinateLineBuffer { t with
          displayBuffer := t.displayBuffer ++ [c]
          internal := { t.internal with
            lineBuffer := update t.internal.lineBuffer typed.2.length c
            lineBufferPos := typed.2.length + 1 }
          signals := t.signals ++ signalOf c }
    else .ok { t with
        displayBuffer := t.displayBuffer ++ [c]
        internal := { t.internal with
          lineBuffer := update t.internal.lineBuffer typed.2.length c
          lineBufferPos := typed.2.length + 1 } }) := by
  have hpos := h.pos
  have hechoed : t.echoed c = [c] := by
    unfold echoed
    rw [if_pos h.echo, if_neg (fun hboth => hc hboth.1)]
  unfold lineProcessor addToSubordinateLineBuffer
  dsimp only
  rw [if_neg (fun hboth => hc hboth.1), if_neg (by omega), if_pos (by omega),
    hechoed, h.canon, hpos, Bool.not_true, Bool.or_false]
  rfl

lemma Holds.key (h : t.Holds typed) (hc : c ≠ Terminals.backspace)
    (hroom : typed.2.length < lineBufferSize) :
    ∃ t', t.lineProcessor c = .ok t' ∧ t'.Holds (edit typed c) := by
  rw [h.add hc hroom]
  have hcontents := h.contents
  unfold Terminal.contents at hcontents
  rw [h.pos, Int.toNat_natCast] at hcontents
  have hline : (range (typed.2.length + 1)).map
      (update t.internal.lineBuffer typed.2.length c) = typed.2 ++ [c] := by
    rw [map_range_succ_update, hcontents]
  cases hends : terminates c with
  | true =>
    unfold flushSubordinateLineBuffer edit
    dsimp only
    rw [if_pos rfl, if_pos (by omega), if_neg hc, if_pos hends]
    refine ⟨_, rfl, h.echo, h.canon, rfl, Nat.zero_le _, rfl, ?_, h.shown.terminator hends⟩
    unfold Terminal.contents
    have hnow : ((typed.2.length : Int) + 1).toNat = typed.2.length + 1 := by omega
    rw [hnow, hline, h.flushed, take_of_length_le h.fits, append_assoc]
  | false =>
    have hedit : edit typed c = (typed.1, typed.2 ++ [c]) := by
      unfold edit
      rw [if_neg hc, if_neg (by rw [hends]; exact Bool.false_ne_true)]
    rw [hedit]
    refine ⟨_, rfl, h.echo, h.canon, ?_, ?_, ?_, h.flushed, h.shown.char hc hends⟩
    · dsimp only
      rw [length_append, length_singleton]
      omega
    · rw [length_append]
      exact hroom
    · unfold Terminal.contents
      have hnow : ((typed.2.length : Int) + 1).toNat = typed.2.length + 1 := by omega
      rw [hnow, hline]

lemma length_contents (t : Terminal) : t.contents.length = t.internal.lineBufferPos.toNat := by
  unfold Terminal.contents
  rw [length_map, length_range]

/-- After one more key the readers have been given the right bytes, and the
screen shows the line buffer. -/
def Agrees (t : Terminal) (typed : List UInt8 × List UInt8) : Prop :=
  t.flushedBuffer = typed.1 ∧ Shows t.displayBuffer t.contents

/-- A key that finds the line buffer full is echoed and dropped. -/
lemma lineProcessor_full (hecho : t.internal.echo = true) (hcanon : t.internal.canon = true)
    (hc : c ≠ Terminals.backspace) (hfull : t.internal.lineBufferPos = lineBufferSize) :
    t.lineProcessor c = .ok (if terminates c then
      { t with
        displayBuffer := t.displayBuffer ++ [c]
        flushedBuffer := t.flushedBuffer ++ t.contents
        internal := { t.internal with lineBufferPos := 0 }
        signals := t.signals ++ signalOf c }
    else { t with displayBuffer := t.displayBuffer ++ [c] }) := by
  have hechoed : t.echoed c = [c] := by
    unfold echoed
    rw [if_pos hecho, if_neg (fun hboth => hc hboth.1)]
  unfold lineProcessor addToSubordinateLineBuffer flushSubordinateLineBuffer
  dsimp only
  rw [if_neg (fun hboth => hc hboth.1), if_pos hfull, ok_bind, hechoed, hcanon,
    Bool.not_true, Bool.or_false]
  cases terminates c with
  | true =>
    rw [if_pos rfl, if_pos (Int.le_of_eq hfull)]
    rfl
  | false => rw [if_neg Bool.false_ne_true, if_neg Bool.false_ne_true]

/-- A key that is dropped is on the screen, or is missing as a terminator. -/
lemma Holds.not_agrees_of_full (h : t.Holds typed)
    (hc : c ≠ Terminals.backspace) (hfull : lineBufferSize ≤ typed.2.length)
    (hstep : t.lineProcessor c = .ok t') : ¬ t'.Agrees (edit typed c) := by
  have hlength : typed.2.length = lineBufferSize := Nat.le_antisymm h.fits hfull
  rw [lineProcessor_full h.echo h.canon hc (by rw [h.pos, hlength])] at hstep
  rintro ⟨hflushed, hshown⟩
  cases hends : terminates c with
  | true =>
    rw [hends] at hstep
    cases hstep
    unfold edit at hflushed
    rw [if_neg hc, if_pos hends] at hflushed
    rw [h.flushed, h.contents, append_assoc] at hflushed
    have hmissing := congrArg length (append_cancel_left hflushed)
    rw [length_append, length_take, length_singleton] at hmissing
    omega
  | false =>
    rw [hends] at hstep
    cases hstep
    have hline := (h.shown.char hc hends).unique hshown
    have hlonger := congrArg length hline
    change (typed.2 ++ [c]).length = t.contents.length at hlonger
    rw [h.contents, length_append, length_singleton] at hlonger
    omega

/-- A key other than a backspace, whatever the line buffer holds. -/
lemma lineProcessor_key (hecho : t.internal.echo = true)
    (hcanon : t.internal.canon = true) (hc : c ≠ Terminals.backspace)
    (hstep : t.lineProcessor c = .ok t') :
    ∃ pos : Int, (t.internal.lineBufferPos = lineBufferSize ∧
        pos = lineBufferSize ∨ 0 ≤ t.internal.lineBufferPos ∧ pos = t.internal.lineBufferPos + 1) ∧
      t'.displayBuffer = t.displayBuffer ++ [c] ∧
      if terminates c then ∃ bytes, t'.flushedBuffer =
        t.flushedBuffer ++ bytes ∧ bytes.length = pos.toNat
      else t'.contents.length = pos.toNat := by
  by_cases hfull : t.internal.lineBufferPos = lineBufferSize
  · rw [lineProcessor_full hecho hcanon hc hfull] at hstep
    cases hstep
    refine ⟨lineBufferSize, .inl ⟨hfull, rfl⟩, ?_, ?_⟩
    · split <;> rfl
    · split
      · refine ⟨t.contents, rfl, ?_⟩
        rw [length_contents, hfull]
      · rw [length_contents]
        rw [hfull]
  · have hechoed : t.echoed c = [c] := by
      unfold echoed
      rw [if_pos hecho, if_neg (fun hboth => hc hboth.1)]
    unfold lineProcessor addToSubordinateLineBuffer at hstep
    dsimp only at hstep
    rw [if_neg (fun hboth => hc hboth.1), if_neg hfull, hechoed, hcanon,
      Bool.not_true, Bool.or_false] at hstep
    split at hstep
    · rename_i hinside
      refine ⟨t.internal.lineBufferPos + 1, .inr ⟨hinside.1, rfl⟩, ?_⟩
      rw [ok_bind] at hstep
      split at hstep
      · rename_i hends
        rw [if_pos hends]
        unfold flushSubordinateLineBuffer at hstep
        rw [if_pos (by dsimp only; omega)] at hstep
        cases hstep
        exact ⟨rfl, _, rfl, length_contents _⟩
      · rename_i hends
        rw [if_neg hends]
        cases hstep
        exact ⟨rfl, length_contents _⟩
    · cases hstep

/-- A new terminal goes wrong at the first key unless its line buffer happens
to be empty. -/
lemma pos_of_first_key (hecho : t.internal.echo = true)
    (hcanon : t.internal.canon = true) (hdisplay : t.displayBuffer = [])
    (hflushed : t.flushedBuffer = []) (hstep : t.lineProcessor c = .ok t')
    (hagrees : t'.Agrees (edit ([], []) c)) : t.internal.lineBufferPos = 0 := by
  by_contra hpos
  obtain ⟨hdelivered, hshown⟩ := hagrees
  by_cases hc : c = backspace
  · subst hc
    unfold lineProcessor removeFromSubordinateLineBuffer at hstep
    dsimp only at hstep
    rw [if_pos ⟨rfl, hcanon⟩, if_neg hpos] at hstep
    split at hstep
    · rename_i hinside
      have hechoed : t.echoed backspace = [backspace, 32, backspace] := by
        unfold echoed
        rw [if_pos hecho, if_pos ⟨rfl, hcanon⟩, if_pos hinside.1]
      rw [ok_bind, hechoed, hdisplay, hcanon] at hstep
      cases hstep
      obtain ⟨last, hlast⟩ := Shows.of_erase hshown
      exact absurd hlast.eq_nil (by simp)
    · cases hstep
  · obtain ⟨pos, hsize, hout, hrest⟩ := lineProcessor_key hecho hcanon hc hstep
    have hlong : 1 < pos.toNat := by
      have hbuffer : lineBufferSize = 300 := rfl
      omega
    rw [hdisplay] at hout
    rw [hout] at hshown
    have hchar := hshown.of_char hc
    unfold edit at hdelivered
    rw [if_neg hc] at hdelivered
    split at hrest
    · rename_i hends
      obtain ⟨bytes, hbytes, hlength⟩ := hrest
      rw [if_pos hends] at hdelivered
      rw [hdelivered, hflushed] at hbytes
      have hone : 1 = ([] ++ bytes).length := congrArg length hbytes
      rw [nil_append] at hone
      omega
    · rename_i hends
      rw [if_neg hends] at hchar
      obtain ⟨before, hbefore, hline⟩ := hchar
      rw [hline, hbefore.eq_nil] at hrest
      change 1 = pos.toNat at hrest
      omega

lemma typeKeys_append (t : Terminal) (typed : List UInt8) (c : UInt8) :
    t.typeKeys (typed ++ [c]) = t.typeKeys typed >>= fun next => next.lineProcessor c := by
  induction typed generalizing t with
  | nil =>
    change (t.lineProcessor c >>= fun next => next.typeKeys []) = t.lineProcessor c
    cases t.lineProcessor c <;> rfl
  | cons head rest ih =>
    change (t.lineProcessor head >>= fun next =>
      next.typeKeys (rest ++ [c])) = (t.lineProcessor head >>= fun next =>
        next.typeKeys rest) >>= fun next => next.lineProcessor c
    cases t.lineProcessor head with
    | error fault => rfl
    | ok next => exact ih next

end Terminal

lemma lines_append (typed : List UInt8) (c : UInt8) :
    lines (typed ++ [c]) = edit (lines typed) c := by
  unfold lines
  rw [foldl_append]
  rfl

section Runs

variable {heap : SubData} {keys typed : List UInt8}

/-- The terminal that the constructor leaves. -/
def created (heap : SubData) : Terminal where
  internal := { heap with echo := true, canon := true }
  displayBuffer := []
  flushedBuffer := []
  signals := []

lemma created_holds (hpos : heap.lineBufferPos = 0) : (created heap).Holds (lines []) := by
  refine ⟨rfl, rfl, hpos, Nat.zero_le _, ?_, rfl, Shows.blank⟩
  unfold Terminal.contents created
  rw [hpos]
  rfl

/-- The keys are typed one by one, as long as each finds room. -/
lemma holds_of_room (typed : List UInt8) (hpos : heap.lineBufferPos = 0)
    (hroom : ∀ before c t, before ++ [c] <+: typed →
      (created heap).typeKeys before = .ok t → t.Holds (lines before) →
      c ≠ backspace → (lines before).2.length < lineBufferSize) :
    ∃ t, (created heap).typeKeys typed = .ok t ∧ t.Holds (lines typed) := by
  induction typed using reverseRecOn with
  | nil => exact ⟨created heap, rfl, created_holds hpos⟩
  | append_singleton before c ih =>
    obtain ⟨t, ht, hholds⟩ := ih fun earlier key t hbegins =>
      hroom earlier key t (hbegins.trans (prefix_append ..))
    rw [Terminal.typeKeys_append, ht, lines_append]
    by_cases hc : c = backspace
    · subst hc
      exact hholds.backspace
    · exact hholds.key hc (hroom before c t prefix_rfl ht hholds hc)

lemma Disciplined.of_fits (hpos : heap.lineBufferPos = 0)
    (hfits : Fits keys) : Disciplined false heap keys := by
  intro typed _ hbegins
  obtain ⟨t, ht, hholds⟩ := holds_of_room typed hpos
    fun before c _ hbefore _ _ => hfits before c (hbefore.trans hbegins)
  refine ⟨t, ht, hholds.flushed, ?_, ?_, ?_⟩
  · rw [hholds.contents]
    exact hholds.shown
  · rw [hholds.pos]
    exact Int.natCast_nonneg _
  · rw [hholds.pos]
    exact Int.ofNat_le.mpr hholds.fits

section

variable (h : Disciplined false heap keys)

include h

lemma Disciplined.agrees (typed : List UInt8) (hnonempty : typed ≠ []) (hbegins : typed <+: keys) :
    ∃ t, (created heap).typeKeys typed = .ok t ∧ t.Agrees (lines typed) := by
  obtain ⟨t, ht, hflushed, hshown, _⟩ := h typed hnonempty hbegins
  exact ⟨t, ht, hflushed, hshown⟩

lemma Disciplined.pos (hkeys : keys ≠ []) : heap.lineBufferPos = 0 := by
  obtain ⟨c, rest, rfl⟩ := exists_cons_of_ne_nil hkeys
  obtain ⟨t, ht, hagrees⟩ := h.agrees [c] (cons_ne_nil _ _) ⟨rest, rfl⟩
  have hstep : (created heap).lineProcessor c = .ok t := by
    rw [← nil_append [c], Terminal.typeKeys_append] at ht
    exact ht
  exact Terminal.pos_of_first_key rfl rfl rfl rfl hstep hagrees

lemma Disciplined.room {c : UInt8} {t : Terminal} (hbegins : typed ++ [c] <+: keys)
    (ht : (created heap).typeKeys typed = .ok t) (hholds : t.Holds (lines typed))
    (hc : c ≠ backspace) : (lines typed).2.length < lineBufferSize := by
  by_contra hfull
  obtain ⟨t', ht', hagrees⟩ :=
    h.agrees _ (append_ne_nil_of_right_ne_nil _ (cons_ne_nil _ _)) hbegins
  rw [Terminal.typeKeys_append, ht] at ht'
  rw [lines_append] at hagrees
  exact hholds.not_agrees_of_full hc (Nat.not_lt.mp hfull) ht' hagrees

lemma Disciplined.fits (hpos : heap.lineBufferPos = 0) : Fits keys := by
  intro typed c hbegins hc
  obtain ⟨t, ht, hholds⟩ := holds_of_room typed hpos
    fun before key t hbefore => h.room ((hbefore.trans (prefix_append ..)).trans hbegins)
  exact h.room hbegins ht hholds hc

end

end Runs

/-- The line discipline works exactly when the line processor starts after the
data is in place, the line buffer from the heap happens to be empty, and no
key but a backspace is typed when the line is as long as the buffer. -/
theorem disciplined_iff (early : Bool) (heap : SubData) (keys : List UInt8) :
    Disciplined early heap keys ↔ keys = [] ∨
    (early = false ∧ heap.lineBufferPos = 0 ∧ Fits keys) := by
  constructor
  · intro h
    by_cases hkeys : keys = []
    · exact .inl hkeys
    · cases early with
      | true =>
        obtain ⟨t, ht, _⟩ := h keys hkeys prefix_rfl
        cases ht
      | false =>
        have hpos := h.pos hkeys
        exact .inr ⟨rfl, hpos, h.fits hpos⟩
  · rintro (rfl | ⟨rfl, hpos, hfits⟩)
    · intro typed hnonempty hbegins
      exact absurd (prefix_nil.mp hbegins) hnonempty
    · exact Disciplined.of_fits hpos hfits

/-- A structure from the heap with some position in the line buffer. -/
def fromHeap (lineBufferPos : Int) : SubData where
  lineBuffer := fun _ => 65
  lineBufferPos := lineBufferPos
  echo := false
  canon := false

/-- When the heap leaves a byte in the line buffer the first newline hands it
over; and when the line buffer is full the next key is on the screen only. -/
theorem fromHeap_not_disciplined : ¬ Disciplined false (fromHeap 1) [newline] ∧
    ¬ Disciplined false (fromHeap 0) (replicate 301 66) := by
  constructor
  · intro h
    have hpos := h.pos (cons_ne_nil _ _)
    cases hpos
  · intro h
    have hroom := h.fits rfl (replicate 300 66) 66 ⟨[], by decide +kernel⟩ (by decide)
    exact absurd hroom (by decide +kernel)

end Merlon.Terminals
