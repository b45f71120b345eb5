/-
What a lookup does to the reference counts of the vnodes that were there
before.  It takes a reference to the vnode where the path starts and to every
vnode that a follow operation counts, and gives back only the one to the vnode
where it ends.
-/
import Merlon.Vfs.Opening

namespace Merlon.Paths

/-- How much a log changes the count of a vnode. -/
def change (node : Nat) : List RefOp → Int
  | [] => 0
  | .reference other :: rest => (if other = node then 1 else 0) + change node rest
  | .dereference other :: rest => (if other = node then -1 else 0) + change node rest

lemma change_append (node : Nat) (earlier later : List RefOp) :
    change node (earlier ++ later) = change node earlier + change node later := by
  induction earlier with
  | nil => exact (Int.zero_add _).symm
  | cons op earlier ih =>
    cases op with
    | reference other => rw [List.cons_append, change, change, ih, Int.add_assoc]
    | dereference other => rw [List.cons_append, change, change, ih, Int.add_assoc]

/-- The counts of the vnodes that existed are as before. -/
def Restores (existed : Nat → Prop) (refs : List RefOp) : Prop :=
  ∀ node, existed node → change node refs = 0

lemma Restores.nil (existed : Nat → Prop) : Restores existed [] := fun _ _ => rfl

lemma restores_congr {existed : Nat → Prop} {refs refs' : List RefOp}
    (h : ∀ node, change node refs = change node refs') :
    Restores existed refs ↔ Restores existed refs' := by
  unfold Restores
  simp only [h]

lemma restores_twice {existed : Nat → Prop} {refs : List RefOp} :
    Restores existed (refs ++ refs) ↔ Restores existed refs := by
  constructor
  · intro h node hexisted
    have hboth := h node hexisted
    rw [change_append] at hboth
    omega
  · intro h node hexisted
    rw [change_append, h node hexisted]
    rfl

namespace Followed

variable {existed : Nat → Prop} {follows : List Followed}

lemma change_refs (node : Nat) (followed : Followed) : change node followed.refs =
      if followed.counting = .counted ∧ followed.node = node then 1 else 0 := by
  unfold refs
  split
  · rename_i hcounted
    simp [change, hcounted]
  · rename_i hother
    rw [if_neg fun h => hother h.1]
    rfl

lemma change_refs_nonneg (node : Nat) (follows : List Followed) :
    0 ≤ change node (follows.flatMap refs) := by
  induction follows with
  | nil => exact Int.le_refl 0
  | cons followed follows ih =>
    rw [List.flatMap_cons, change_append, change_refs]
    split <;> omega

/-- A vnode is counted once for every step that counts it. -/
lemma change_refs_eq_zero_iff (node : Nat) (follows : List Followed) :
    change node (follows.flatMap refs) = 0 ↔ ∀ followed ∈ follows, followed.counting = .counted →
    followed.node ≠ node := by
  induction follows with
  | nil => exact ⟨fun _ => nofun, fun _ => rfl⟩
  | cons followed follows ih =>
    have hlater := change_refs_nonneg node follows
    rw [List.flatMap_cons, change_append, List.forall_mem_cons, ← ih, change_refs]
    split
    · rename_i hcounted
      exact ⟨fun h => by omega, fun h => absurd hcounted.2 (h.1 hcounted.1)⟩
    · rename_i hother
      rw [Int.zero_add]
      exact ⟨fun h => ⟨fun hcounted hnode => hother ⟨hcounted, hnode⟩, h⟩, And.right⟩

/-- A walk that gives back the vnode where it ends keeps the counts exactly
when it ends where it started and counted no vnode that existed. -/
lemma restores_iff {start last : Nat} (hstart : existed start) :
    Restores existed (.reference start :: (follows.flatMap refs ++ [.dereference last])) ↔
    last = start ∧ ∀ followed ∈ follows, followed.counting = .counted →
    ¬ existed followed.node := by
  have hchange : ∀ node, change node
      (.reference start :: (follows.flatMap refs ++ [.dereference last])) =
      (if start = node then 1 else 0) + (change node (follows.flatMap refs) +
        if last = node then -1 else 0) := by
    intro node
    rw [change, change_append, change, change, Int.add_zero]
  constructor
  · intro h
    have hlast : last = start := by
      have hzero := h start hstart
      have hnonneg := change_refs_nonneg start follows
      rw [hchange] at hzero
      by_contra hne
      omega
    refine ⟨hlast, fun followed hmem hcounted hexisted => ?_⟩
    have hzero := h followed.node hexisted
    rw [hchange] at hzero
    have hnone : change followed.node (follows.flatMap refs) = 0 := by split at hzero <;> omega
    exact (change_refs_eq_zero_iff _ _).mp hnone followed hmem hcounted rfl
  · rintro ⟨rfl, hcounted⟩ node hexisted
    have hnone : change node (follows.flatMap refs) = 0 := by
      refine (change_refs_eq_zero_iff _ _).mpr fun followed hmem hcount => ?_
      rintro rfl
      exact hcounted followed hmem hcount hexisted
    rw [hchange, hnone]
    split <;> rfl

/-- A walk that gives nothing back does not keep the counts. -/
lemma not_restores {start : Nat} (hstart : existed start) :
    ¬ Restores existed (.reference start :: follows.flatMap refs) := by
  intro h
  have hzero := h start hstart
  have hnonneg := change_refs_nonneg start follows
  rw [change] at hzero
  omega

end Followed

/-- The steps of a walk: what the follow operations returned, the vnode where it
ends, and the error that ended it. -/
structure Trail where
  follows : List Followed
  last : Nat
  errno : Option Errno

def Trail.result (trail : Trail) : Except Errno Nat :=
  match trail.errno with
  | none => .ok trail.last
  | some errno => .error errno

def Trail.refs (trail : Trail) : List RefOp :=
  match trail.errno with
  | none => trail.follows.flatMap Followed.refs
  | some _ => trail.follows.flatMap Followed.refs ++ [.dereference trail.last]

namespace FileSystems

variable {fs : FileSystems} {existed : Nat → Prop} {text : List UInt8}
  {rest : List UInt8} {errno : Errno}

def trail (fs : FileSystems) : Nat → Nat → List UInt8 → Trail
  | 0, node, _ => ⟨[], node, none⟩
  | _ + 1, node, [] => ⟨[], node, none⟩
  | rounds + 1, node, path =>
    match getPathComponent path maxComponentLength slash with
    | .error errno => ⟨[], node, some errno⟩
    | .ok (component, rest) =>
      if component = dot then fs.trail rounds node rest
      else
        match fs.vnodeOpFollow node component with
        | .error errno => ⟨[], node, some errno⟩
        | .ok followed =>
          let later := fs.trail rounds followed.node rest
          { later with follows := followed :: later.follows }

lemma walk_eq_trail (rounds node : Nat) (path : List UInt8) : fs.walk rounds node path =
      ((fs.trail rounds node path).result, (fs.trail rounds node path).refs) := by
  fun_induction fs.walk rounds node path with
  | case1 node path => rfl
  | case2 rounds node => rfl
  | case3 rounds node path hpath errno hcomponent =>
    rw [trail, hcomponent]
    · rfl
    · exact hpath
  | case4 rounds node path hpath rest hcomponent ih =>
    rw [trail, hcomponent]
    · dsimp only
      rw [if_pos rfl, ih]
    · exact hpath
  | case5 rounds node path hpath component rest hcomponent hdot errno hfollow =>
    rw [trail, hcomponent]
    · dsimp only
      rw [if_neg hdot, hfollow]
      rfl
    · exact hpath
  | case6 rounds node path hpath component rest hcomponent hdot followed hfollow walked ih =>
      rw [trail, hcomponent]
      · dsimp only [walked] at ih ⊢
        rw [if_neg hdot, hfollow, ih]
        unfold Trail.result Trail.refs
        cases (fs.trail rounds followed.node rest).errno with
        | none => rfl
        | some errno => simp
      · exact hpath

/-- The path cannot be looked up, or the walk ends where it starts and counts
no vnode that existed. -/
def Returns (fs : FileSystems) (existed : Nat → Prop) (path : List UInt8) :
    Prop :=
  path.length < maxPathLength → ∀ start rest, fs.startOfPath path = .ok (start, rest) →
    (fs.trail rest.length start rest).last = start ∧
    ∀ followed ∈ (fs.trail rest.length start rest).follows, followed.counting = .counted → ¬ existed
    followed.node

/-- The vnodes where paths start existed before. -/
structure Rooted (fs : FileSystems) (existed : Nat → Prop) : Prop where
  mounted : ∀ name root, fs.mountPoint name = some root → existed root
  working : ∀ cwd, fs.process = some (some cwd) → existed cwd

lemma Rooted.start {start : Nat}
    (h : fs.Rooted existed) (hstart : fs.startOfPath text = .ok (start, rest)) : existed start := by
  unfold startOfPath at hstart
  split at hstart
  · split at hstart
    · cases hstart
    · cases hstart
    · rename_i cwd hcwd
      cases hstart
      exact h.working _ hcwd
  · split at hstart
    · cases hstart
    · split at hstart
      · cases hstart
      · rename_i root hroot
        cases hstart
        exact h.mounted _ _ hroot

/-- How a lookup ends: before it takes a reference, or at the end of a trail. -/
lemma getVnodeFromPath_cases (fs : FileSystems) (existed : Nat → Prop) (path : List UInt8) :
    (fs.Returns existed path ∧ ∃ errno, ∀ wantParent,
      fs.getVnodeFromPath path wantParent = (.error errno, [])) ∨
    ∃ start rest, path.length < maxPathLength ∧ fs.startOfPath path = .ok (start, rest) ∧
      fs.getVnodeFromPath path false =
        ((fs.trail rest.length start rest).result,
          .reference start :: (fs.trail rest.length start rest).refs) := by
  by_cases hpath : path = []
  · subst hpath
    refine .inl ⟨fun _ start rest hstart => ?_, .einval, fun _ => rfl⟩
    unfold startOfPath at hstart
    rw [if_pos (show isRelative [] = true from rfl)] at hstart
    split at hstart
    · cases hstart
    · cases hstart
    · cases hstart
      exact ⟨rfl, nofun⟩
  by_cases hlong : maxPathLength ≤ path.length
  · refine .inl ⟨fun hshort => absurd hlong (Nat.not_le.mpr hshort),
      .enametoolong, fun wantParent => ?_⟩
    unfold getVnodeFromPath
    rw [if_neg hpath, if_pos hlong]
  · cases hstart : fs.startOfPath path with
    | error errno =>
      refine .inl ⟨fun _ start rest hok => ?_, errno, fun wantParent => ?_⟩
      · rw [hstart] at hok
        cases hok
      · unfold getVnodeFromPath
        rw [if_neg hpath, if_neg hlong, hstart]
    | ok found =>
      obtain ⟨start, rest⟩ := found
      refine .inr ⟨start, rest, Nat.not_le.mp hlong, rfl, ?_⟩
      unfold getVnodeFromPath
      rw [if_neg hpath, if_neg hlong, hstart]
      dsimp only
      rw [walk_eq_trail]
      cases (fs.trail rest.length start rest).result with
      | error errno => rfl
      | ok node => rfl

/-- A lookup that fails does the same when the parent is wanted. -/
lemma getVnodeFromPath_parent {path : List UInt8}
    (h : (fs.getVnodeFromPath path false).1 = .error errno) :
    fs.getVnodeFromPath path true = fs.getVnodeFromPath path false := by
  unfold getVnodeFromPath at h ⊢
  split
  · rfl
  · rename_i hpath
    rw [if_neg hpath] at h
    split
    · rfl
    · rename_i hlong
      rw [if_neg hlong] at h
      split
      · rfl
      · rename_i start rest hstart
        rw [hstart] at h
        dsimp only at h ⊢
        cases hwalked : (fs.walk rest.length start rest).1 with
        | error errno => rfl
        | ok node =>
          rw [hwalked] at h
          cases h

section

variable (hrooted : fs.Rooted existed)
include hrooted

lemma returns_iff {start : Nat} (hlength : text.length < maxPathLength)
    (hstart : fs.startOfPath text = .ok (start, rest)) :
    Restores existed (.reference start ::
      ((fs.trail rest.length start rest).follows.flatMap Followed.refs ++
        [.dereference (fs.trail rest.length start rest).last])) ↔ fs.Returns existed text := by
  rw [Followed.restores_iff (hrooted.start hstart)]
  constructor
  · intro h _ start' rest' hstart'
    rw [hstart] at hstart'
    cases hstart'
    exact h
  · intro h
    exact h hlength start rest hstart

/-- A lookup that fails keeps the counts exactly when the walk returns. -/
lemma restores_of_error (h : (fs.getVnodeFromPath text false).1 = .error errno) :
    Restores existed (fs.getVnodeFromPath text false).2 ↔ fs.Returns existed text := by
  rcases fs.getVnodeFromPath_cases existed text with
    ⟨hreturns, errno', hfails⟩ | ⟨start, rest, hlength, hstart, hlookup⟩
  · rw [hfails false]
    exact iff_of_true (.nil existed) hreturns
  · rw [hlookup] at h ⊢
    rw [← returns_iff hrooted hlength hstart]
    unfold Trail.refs
    unfold Trail.result at h
    cases herrno : (fs.trail rest.length start rest).errno with
    | none =>
      rw [herrno] at h
      cases h
    | some errno => rfl

/-- A lookup that succeeds holds a reference to the vnode that it found. -/
lemma restores_of_ok {node : Nat} (h : (fs.getVnodeFromPath text false).1 = .ok node) :
    (Restores existed
      ((fs.getVnodeFromPath text false).2 ++ [.dereference node]) ↔ fs.Returns existed text) ∧
    ¬ Restores existed (fs.getVnodeFromPath text false).2 := by
  rcases fs.getVnodeFromPath_cases existed text with
    ⟨_, errno, hfails⟩ | ⟨start, rest, hlength, hstart, hlookup⟩
  · rw [hfails false] at h
    cases h
  · rw [hlookup] at h ⊢
    rw [← returns_iff hrooted hlength hstart]
    unfold Trail.refs
    unfold Trail.result at h
    cases herrno : (fs.trail rest.length start rest).errno with
    | none =>
      rw [herrno] at h
      cases h
      exact ⟨Iff.rfl, Followed.not_restores (hrooted.start hstart)⟩
    | some errno =>
      rw [herrno] at h
      cases h

end

end FileSystems

end Merlon.Paths
