/-
The table of file systems, `fs/filesystem.c`.  `RegisterFilesystem` stores its
file system twice, and once more when the table is full.
-/
import Mathlib.Logic.Function.Basic

namespace Merlon.Filesystems

open List

def maxRegisteredFilesystems : Nat := 8

/-- `struct filesystem`; mount creators are known by a number. -/
structure Filesystem where
  name : String
  mountCreator : Nat
deriving DecidableEq

inductive Errno where
  | einval
  | ealready
deriving DecidableEq

/-- A slot from `MAX_REGISTERED_FILESYSTEMS` on is behind the table. -/
structure Table where
  registeredFilesystems : Nat → Filesystem
  numFilesystems : Nat

/-- `registered_filesystems[num_filesystems++] = fs`. -/
def Table.store (table : Table) (fs : Filesystem) : Table where
  registeredFilesystems := Function.update table.registeredFilesystems table.numFilesystems fs
  numFilesystems := table.numFilesystems + 1

/-- The arguments are `none` if one of them is a null pointer. -/
def registerFilesystem (table : Table) : Option Filesystem → Option Errno × Table
  | none => (some .einval, table)
  | some fs =>
    let (ret, table) :=
      if table.numFilesystems < maxRegisteredFilesystems then (none, table.store fs)
      else (some .ealready, table)
    (ret, table.store fs)

/-- The loop of `MountFilesystemForDisk`: the file systems whose mount creators
are called, up to the first that mounts the disk. -/
def tried (mounts : Filesystem → Bool) : List Filesystem → List Filesystem
  | [] => []
  | fs :: rest => fs :: if mounts fs then [] else tried mounts rest

def Table.entries (table : Table) : List Filesystem :=
  (range table.numFilesystems).map table.registeredFilesystems

/-- The table after the calls, and the file systems of those that returned 0. -/
def Table.run (table : Table) : List (Option Filesystem) → Table × List Filesystem
  | [] => (table, [])
  | fs :: rest =>
    let (ret, table) := registerFilesystem table fs
    let (table, accepted) := table.run rest
    (table, if ret = none then fs.toList ++ accepted else accepted)

/-- The table is what the calls asked for. -/
structure Table.Exact (table : Table) (calls : List (Option Filesystem)) : Prop where
  entries : (table.run calls).1.entries = (table.run calls).2
  bounded : (table.run calls).1.numFilesystems ≤ maxRegisteredFilesystems
  failed : ∀ before fs rest, calls = before ++ fs :: rest →
    (registerFilesystem (table.run before).1 fs).1 ≠ none →
    (registerFilesystem (table.run before).1 fs).2 = (table.run before).1
  once : ∀ mounts fs, (tried mounts (table.run calls).1.entries).count fs ≤
    (table.run calls).2.count fs

lemma run_null {table : Table} {calls : List (Option Filesystem)} (h : ∀ fs ∈ calls, fs = none) :
    table.run calls = (table, []) := by
  induction calls with
  | nil => rfl
  | cons fs rest ih =>
    obtain ⟨rfl, hrest⟩ := forall_mem_cons.mp h
    rw [Table.run, registerFilesystem]
    dsimp only
    rw [ih hrest]
    rfl

/-- Every call with two arguments counts one file system more than it accepts. -/
lemma num_run (table : Table) (calls : List (Option Filesystem)) :
    (table.run calls).1.numFilesystems = table.numFilesystems + (table.run calls).2.length +
      (calls.filter Option.isSome).length := by
  induction calls generalizing table with
  | nil => rfl
  | cons fs rest ih =>
    rw [Table.run]
    rw [ih]
    cases fs with
    | none => rfl
    | some fs =>
      by_cases hroom : table.numFilesystems < maxRegisteredFilesystems
      · simp [registerFilesystem, Table.store, hroom]
        omega
      · simp [registerFilesystem, Table.store, hroom]
        omega

lemma tried_sublist (mounts : Filesystem → Bool) (entries : List Filesystem) :
    (tried mounts entries).Sublist entries := by
  induction entries with
  | nil => exact List.Sublist.slnil
  | cons first rest ih =>
    rw [tried]
    split
    · exact (nil_sublist rest).cons_cons first
    · exact ih.cons_cons first

/-- The table is what the calls asked for exactly if none of them asked for
anything. -/
theorem exact_iff_null (slots : Nat → Filesystem) (calls : List (Option Filesystem)) :
    Table.Exact ⟨slots, 0⟩ calls ↔ ∀ fs ∈ calls, fs = none := by
  constructor
  · intro h fs hmem
    have hlength := congrArg length h.entries
    rw [Table.entries, length_map, length_range, num_run] at hlength
    have hnone : calls.filter Option.isSome = [] := length_eq_zero_iff.mp (by omega)
    simpa using filter_eq_nil_iff.mp hnone fs hmem
  · intro h
    refine ⟨?_, ?_, ?_, fun mounts fs => ?_⟩
    · rw [run_null h]
      rfl
    · rw [run_null h]
      exact Nat.zero_le _
    · rintro before fs rest rfl _
      rw [h fs (mem_append_right _ mem_cons_self), registerFilesystem]
    · rw [run_null h]
      exact (tried_sublist mounts _).count_le fs

/-- After `InitFilesystemTable` a disk without a file system is offered to the
demo file system twice. -/
theorem demofs_twice :
    let demofs : Filesystem := ⟨"demofs", 0⟩
    let table := (Table.run ⟨fun _ => demofs, 0⟩ [some demofs]).1
    table.numFilesystems = 2 ∧ tried (fun _ => false) table.entries = [demofs, demofs] := by
  decide

end Merlon.Filesystems
