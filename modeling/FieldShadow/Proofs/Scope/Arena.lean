import Mathlib.Data.List.Basic
import FieldShadow.Proofs.HiddenField.Frames

/-!
# Scopes in an arena

The frames of a scope stack can be kept in one array, each with a link to the frame that it was
entered from. Names are then looked up along the links. Whatever is done to such an arena, through
handles of frames that are long gone too, it stays the arena of the stack to which the same is done
(`apply_ofStack`): its links lead from each frame to the one right below it (`isChained_ofStack`),
and both see the same names (`refines_ofStack`).

## Shape of the argument

The arena is a second way to keep the same frames, with its own operations: entering adds a frame at
the end of the array and links it, leaving follows the link, and a handle that was kept can be gone
back to at any time. Frames are never taken out of the array, which is why stale handles stay good.

`ofStack` writes a stack into an arena. Each operation, done on the arena of a stack, gives the
arena of a stack again; that is one lemma for each (`apply_ofStack`), and a row of operations
follows by induction. What is looked up is then compared once, between the chain of links and the
frames of the stack from the top (`exists_topmost_iff`).
-/

namespace FieldShadow

open ScopeStack (Step)

/-- A frame with the index of the frame that it was entered from. -/
structure LinkedFrame where
  parent? : Option Nat
  frame : ScopeFrame
  deriving DecidableEq

/-- Frames in the order in which they were entered. Links lead down. -/
structure ScopeArena where
  frames : Array LinkedFrame
  nonempty : 0 < frames.size
  parent_lt : ∀ i p, frames[i]?.bind LinkedFrame.parent? = some p → p < i

namespace ScopeArena

/-- Arenas differ only by their arrays; the two facts they carry are proofs. -/
theorem ext_frames {a b : ScopeArena} (h : a.frames = b.frames) : a = b := by
  cases a
  cases b
  obtain rfl := h
  rfl

/-- An arena with one frame, which was entered from none. -/
def root (frame : ScopeFrame) : ScopeArena where
  frames := #[⟨none, frame⟩]
  nonempty := Nat.one_pos
  parent_lt := by
    intro i p h
    cases i <;> simp at h

/-- The arena outside of all types. -/
def new : ScopeArena :=
  root (.new true none)

/-- The number of frames. -/
def depth (a : ScopeArena) : Nat :=
  a.frames.size

/-- The index of the innermost frame. -/
def top (a : ScopeArena) : Nat :=
  a.frames.size - 1

/-- The frame with an index. -/
def frame? (a : ScopeArena) (index : Nat) : Option ScopeFrame :=
  a.frames[index]?.map LinkedFrame.frame

/-- The index of the frame that a frame was entered from. -/
def parent? (a : ScopeArena) (index : Nat) : Option Nat :=
  a.frames[index]?.bind LinkedFrame.parent?

/-- Puts a frame on top. -/
def cover (a : ScopeArena) (frame : ScopeFrame) : ScopeArena where
  frames := a.frames.push ⟨some a.top, frame⟩
  nonempty := by simp
  parent_lt := by
    intro i p h
    rw [Array.getElem?_push] at h
    split at h
    · have hpos := a.nonempty
      obtain rfl : a.top = p := by simpa using h
      rw [top]
      omega
    · exact a.parent_lt i p h

/-- Enters a type body without fields so far. -/
def push (a : ScopeArena) (isStatic : Bool) (typeName? : Option String) : ScopeArena :=
  a.cover (.new isStatic typeName?)

/-- Leaves the innermost type body; the compilation unit cannot be left. -/
def pop? (a : ScopeArena) : Option (ScopeFrame × ScopeArena) :=
  if h : a.frames.size = 1 then none
  else a.frames.back?.map fun last => (last.frame,
    { frames := a.frames.pop
      nonempty := by
        have hpos := a.nonempty
        rw [Array.size_pop]
        omega
      parent_lt := by
        intro i p hp
        rw [Array.getElem?_pop] at hp
        split at hp
        · exact a.parent_lt i p hp
        · simp at hp })

/-- Changes the frame with an index; without such a frame nothing changes. -/
def modify (a : ScopeArena) (index : Nat) (f : ScopeFrame → ScopeFrame) : ScopeArena where
  frames := a.frames.modify index fun l => { l with frame := f l.frame }
  nonempty := by simpa using a.nonempty
  parent_lt := by
    intro i p h
    rw [Array.getElem?_modify] at h
    refine a.parent_lt i p ?_
    split at h
    · cases hframe : a.frames[i]? <;> simp_all
    · exact h

/-- Adds an instance field to a frame. -/
def addInstance (a : ScopeArena) (index : Nat) (name : String) : ScopeArena :=
  a.modify index (.addInstance name)

/-- Adds a static field to a frame. -/
def addStatic (a : ScopeArena) (index : Nat) (name : String) : ScopeArena :=
  a.modify index (.addStatic name)

/-- The indices from a frame along the links. -/
def indicesFrom (a : ScopeArena) (index : Nat) : List Nat :=
  match _h : a.parent? index with
  | none => [index]
  | some p => index :: a.indicesFrom p
termination_by index
decreasing_by exact a.parent_lt index p ‹_›

/-- The indices of the frames from the innermost outwards. -/
def indices (a : ScopeArena) : List Nat :=
  a.indicesFrom a.top

/-- The frames from the innermost outwards. -/
def chain (a : ScopeArena) : List ScopeFrame :=
  a.indices.filterMap a.frame?

/-- Whether a static field is seen: those of all frames are. -/
def hasStatic (a : ScopeArena) (name : String) : Bool :=
  a.chain.any fun frame => frame.staticFields.contains name

/-- Whether an instance field is seen from the first of some frames. A static frame is asked before
it ends the search. -/
def instanceSeen (name : String) : List ScopeFrame → Bool
  | [] => false
  | frame :: outer =>
    if frame.instanceFields.contains name then true
    else if frame.isStatic then false
    else instanceSeen name outer

/-- Whether an instance field is seen. -/
def hasInstance (a : ScopeArena) (name : String) : Bool :=
  instanceSeen name a.chain

/-- The name of the innermost type that has one. -/
def enclosingType? (a : ScopeArena) : Option String :=
  a.chain.findSome? ScopeFrame.typeName?

/-- The arena after a change. A `pop` that is not possible changes nothing. -/
def apply (a : ScopeArena) : Step → ScopeArena
  | .push isStatic typeName? => a.push isStatic typeName?
  | .pop => (a.pop?.map Prod.snd).getD a
  | .reset => new
  | .addInstance index name => a.addInstance index name
  | .addStatic index name => a.addStatic index name

/-! ## Frames and links -/

variable {a : ScopeArena}

/-- What is put on top takes the next index; below it every frame stays where it is. -/
theorem frame?_cover (a : ScopeArena) (f : ScopeFrame) (i : Nat) :
    (a.cover f).frame? i = if i = a.depth then some f else a.frame? i := by
  rw [frame?, cover, Array.getElem?_push, depth]
  split <;> rfl

/-- What is put on top was entered from what was on top before. -/
theorem parent?_cover (a : ScopeArena) (f : ScopeFrame) (i : Nat) :
    (a.cover f).parent? i = if i = a.depth then some a.top else a.parent? i := by
  rw [parent?, cover, Array.getElem?_push, depth]
  split <;> rfl

@[simp] theorem depth_cover (a : ScopeArena) (f : ScopeFrame) : (a.cover f).depth = a.depth + 1 :=
  Array.size_push _

@[simp] theorem depth_modify (a : ScopeArena) (index : Nat) (f : ScopeFrame → ScopeFrame) :
    (a.modify index f).depth = a.depth :=
  Array.size_modify

/-- A change is seen at its own index only, and nowhere if there is no such frame. -/
theorem frame?_modify (a : ScopeArena) (index : Nat) (f : ScopeFrame → ScopeFrame) (i : Nat) :
    (a.modify index f).frame? i = if i = index then (a.frame? i).map f else a.frame? i := by
  rw [frame?, frame?, modify, Array.getElem?_modify, eq_comm]
  split
  · next h =>
    rw [if_pos h.symm, Option.map_map]
    cases a.frames[i]? <;> rfl
  · next h => rw [if_neg (Ne.symm h)]

/-- No change of a frame touches a link. -/
theorem parent?_modify (a : ScopeArena) (index : Nat) (f : ScopeFrame → ScopeFrame) (i : Nat) :
    (a.modify index f).parent? i = a.parent? i := by
  rw [parent?, parent?, modify, Array.getElem?_modify]
  split
  · cases a.frames[i]? <;> rfl
  · rfl

/-- The compilation unit cannot be left. -/
theorem pop?_root (f : ScopeFrame) : (root f).pop? = none :=
  dif_pos rfl

/-- What was put on top is taken off again, and the arena is the one from before. -/
theorem pop?_cover (a : ScopeArena) (f : ScopeFrame) : (a.cover f).pop? = some (f, a) := by
  have hsize : ¬ (a.cover f).frames.size = 1 := by
    have hpos := a.nonempty
    rw [cover, Array.size_push]
    omega
  rw [pop?, dif_neg hsize]
  simp only [cover, Array.back?_push, Option.map_some]
  exact congrArg some (Prod.ext rfl (ext_frames Array.pop_push))

/-- An arena of one frame is changed by the index of that frame alone. -/
theorem modify_root (base : ScopeFrame) (index : Nat) (f : ScopeFrame → ScopeFrame) :
    (root base).modify index f = if index = 0 then root (f base) else root base := by
  split
  · next h =>
    subst h
    exact ext_frames rfl
  · next h =>
    refine ext_frames (Array.ext_getElem? fun i => ?_)
    rw [modify, Array.getElem?_modify]
    split
    · next hi =>
      subst hi
      cases index <;> simp_all [root]
    · rfl

/-- A change of an array with one more element is a change of that element or of those before it. -/
theorem modify_push {α : Type} (xs : Array α) (x : α) (index : Nat) (f : α → α) :
    (xs.push x).modify index f =
      if index = xs.size then xs.push (f x) else (xs.modify index f).push x := by
  apply Array.ext_getElem?
  intro i
  by_cases hindex : index = xs.size
  · rw [if_pos hindex, Array.getElem?_modify, Array.getElem?_push, Array.getElem?_push]
    by_cases hi : i = xs.size
    · rw [if_pos hi, if_pos hi, if_pos (by omega)]
      rfl
    · rw [if_neg hi, if_neg hi, if_neg (by omega)]
  · rw [if_neg hindex, Array.getElem?_modify, Array.getElem?_push, Array.getElem?_push,
      Array.getElem?_modify, Array.size_modify]
    by_cases hi : i = xs.size
    · rw [if_pos hi, if_pos hi, if_neg (by omega)]
    · rw [if_neg hi, if_neg hi]

/-- Only the frame on top is changed by its own index. -/
theorem modify_cover (a : ScopeArena) (g : ScopeFrame) (index : Nat)
    (f : ScopeFrame → ScopeFrame) :
    (a.cover g).modify index f =
      if index = a.depth then a.cover (f g) else (a.modify index f).cover g := by
  have htop : (a.modify index f).top = a.top := by simp [top, modify]
  apply ext_frames
  show (a.frames.push ⟨some a.top, g⟩).modify index (fun l => { l with frame := f l.frame }) = _
  rw [modify_push, depth]
  split
  · rfl
  · show _ = (a.modify index f).frames.push ⟨some (a.modify index f).top, g⟩
    rw [htop]
    rfl

/-- One step along the links, without the proof that the recursion carries. -/
theorem indicesFrom_eq (a : ScopeArena) (index : Nat) :
    a.indicesFrom index = match a.parent? index with
      | none => [index]
      | some p => index :: a.indicesFrom p := by
  rw [indicesFrom]
  split <;> simp_all

/-- What lies below an index is the same whatever is put on top. -/
theorem indicesFrom_cover (a : ScopeArena) (f : ScopeFrame) {index : Nat} (h : index < a.depth) :
    (a.cover f).indicesFrom index = a.indicesFrom index := by
  induction index using Nat.strongRecOn with
  | _ index ih =>
    have hparent : (a.cover f).parent? index = a.parent? index := by
      rw [parent?_cover, if_neg (by omega)]
    rw [indicesFrom_eq, indicesFrom_eq, hparent]
    cases hp : a.parent? index with
    | none => rfl
    | some p =>
      have hlt := a.parent_lt index p hp
      exact congrArg (index :: ·) (ih p hlt (by omega))

/-- From a new top the links go on where they started before. -/
theorem indices_cover (a : ScopeArena) (f : ScopeFrame) :
    (a.cover f).indices = a.depth :: a.indices := by
  have htop : (a.cover f).top = a.depth := by simp [top, cover, depth]
  have hlt : a.top < a.depth := Nat.sub_lt a.nonempty Nat.one_pos
  rw [indices, htop, indicesFrom_eq, parent?_cover, if_pos rfl]
  exact congrArg (a.depth :: ·) (indicesFrom_cover a f hlt)

/-! ## The arena of a stack -/

/-- The frames of a stack, entered one from the other. -/
def ofFrames (base : ScopeFrame) : List ScopeFrame → ScopeArena
  | [] => root base
  | f :: above => (ofFrames base above).cover f

/-- The frames of a stack as an arena. -/
def ofStack (s : ScopeStack) : ScopeArena :=
  ofFrames s.base s.above

section

variable (base : ScopeFrame) (above : List ScopeFrame)

@[simp] theorem depth_ofFrames : (ofFrames base above).depth = above.length + 1 := by
  induction above with
  | nil => rfl
  | cons f above ih => rw [ofFrames, depth_cover, ih, List.length_cons]

/-- The array has the frames from the root up, a stack has them from the top down. -/
theorem frames_ofFrames :
    (ofFrames base above).frames.toList.map LinkedFrame.frame = (above ++ [base]).reverse := by
  induction above with
  | nil => rfl
  | cons f above ih =>
    rw [ofFrames, cover, Array.toList_push, List.map_append, ih, List.cons_append,
      List.reverse_cons]
    rfl

/-- So a handle of the arena is an index into the reversed chain of the stack. -/
theorem frame?_ofFrames (i : Nat) :
    (ofFrames base above).frame? i = (above ++ [base]).reverse[i]? := by
  rw [← frames_ofFrames, List.getElem?_map, Array.getElem?_toList, frame?]

/-- Each frame was entered from the one right below it. -/
theorem parent?_ofFrames {i : Nat} (h : i < above.length) :
    (ofFrames base above).parent? (i + 1) = some i := by
  induction above with
  | nil => exact absurd h (Nat.not_lt_zero i)
  | cons f above ih =>
    rw [ofFrames, parent?_cover, depth_ofFrames]
    split
    · next heq =>
      have htop : (ofFrames base above).top = above.length := by
        rw [top, ← depth, depth_ofFrames, Nat.add_sub_cancel]
      rw [htop]
      exact congrArg some (by omega)
    · next hne =>
      rw [List.length_cons] at h
      exact ih (by omega)

/-- The root was entered from none. -/
theorem parent?_ofFrames_zero : (ofFrames base above).parent? 0 = none := by
  induction above with
  | nil => rfl
  | cons f above ih => rw [ofFrames, parent?_cover, depth_ofFrames, if_neg (by omega), ih]

/-- The links lead from the innermost frame past each frame once. -/
theorem indices_ofFrames :
    (ofFrames base above).indices = (List.range (above.length + 1)).reverse := by
  induction above with
  | nil =>
    rw [ofFrames, indices, indicesFrom_eq]
    rfl
  | cons f above ih =>
    rw [ofFrames, indices_cover, ih, depth_ofFrames, List.length_cons,
      List.range_succ (n := above.length + 1), List.reverse_append]
    rfl

/-- Along the links the arena gives back the frames of the stack, innermost first. -/
theorem chain_ofFrames : (ofFrames base above).chain = above ++ [base] := by
  induction above with
  | nil =>
    rw [chain, indices_ofFrames]
    rfl
  | cons f above ih =>
    have hbelow : (ofFrames base above).indices.filterMap (ofFrames base (f :: above)).frame? =
        (ofFrames base above).chain := by
      refine List.filterMap_congr fun i hi => ?_
      rw [indices_ofFrames, List.mem_reverse, List.mem_range, ← depth_ofFrames base above] at hi
      rw [ofFrames, frame?_cover, if_neg (Nat.ne_of_lt hi)]
    have htop : (ofFrames base (f :: above)).frame? (ofFrames base above).depth = some f := by
      rw [ofFrames, frame?_cover, if_pos rfl]
    rw [chain, ofFrames, indices_cover]
    rw [← ofFrames, List.filterMap_cons_some htop, hbelow, ih, List.cons_append]

end

/-- A stack is changed at its top or below it, which is the recursion that the arena follows. -/
theorem modify_above (base g : ScopeFrame) (above : List ScopeFrame) (index : Nat)
    (f : ScopeFrame → ScopeFrame) :
    (ScopeStack.mk base (g :: above)).modify index f =
      if index = above.length + 1 then ⟨base, f g :: above⟩
      else
        let below := (ScopeStack.mk base above).modify index f
        ⟨below.base, g :: below.above⟩ := by
  unfold ScopeStack.modify
  rw [List.length_cons]
  by_cases hroot : index = 0
  · simp [hroot]
  · by_cases htop : index = above.length + 1
    · simp [htop]
    · by_cases hle : index ≤ above.length
      · have hsub : above.length + 1 - index = above.length - index + 1 := by omega
        simp [hroot, htop, hle, Nat.le_succ_of_le hle, hsub]
      · simp [hroot, htop, hle, show ¬ index ≤ above.length + 1 by omega]

/-- A frame is changed where the stack has it. -/
theorem modify_ofFrames (base : ScopeFrame) (above : List ScopeFrame) (index : Nat)
    (f : ScopeFrame → ScopeFrame) :
    (ofFrames base above).modify index f = ofStack ((ScopeStack.mk base above).modify index f) := by
  induction above with
  | nil =>
    rw [ofFrames, modify_root]
    by_cases hroot : index = 0
    · rw [if_pos hroot, ScopeStack.modify, if_pos hroot]
      rfl
    · rw [if_neg hroot, ScopeStack.modify, if_neg hroot, if_neg (by simpa using hroot)]
      rfl
  | cons g above ih =>
    rw [ofFrames, modify_cover, depth_ofFrames, modify_above, ih]
    split <;> rfl

/-- The arena and the stack change in step. -/
theorem apply_ofStack (s : ScopeStack) (step : Step) :
    (ofStack s).apply step = ofStack (s.apply step) := by
  cases step with
  | push isStatic typeName? => rfl
  | pop =>
    obtain ⟨base, above⟩ := s
    cases above with
    | nil => rfl
    | cons f above =>
      rw [apply, ofStack, ofFrames, pop?_cover]
      rfl
  | reset => rfl
  | addInstance index name => exact modify_ofFrames s.base s.above index (.addInstance name)
  | addStatic index name => exact modify_ofFrames s.base s.above index (.addStatic name)

/-- Whole rows of steps are taken in step, by induction on the row. -/
theorem foldl_apply_ofStack (steps : List Step) (s : ScopeStack) :
    steps.foldl apply (ofStack s) = ofStack (steps.foldl ScopeStack.apply s) := by
  induction steps generalizing s with
  | nil => rfl
  | cons step steps ih => rw [List.foldl_cons, List.foldl_cons, apply_ofStack, ih]

/-- A change that keeps frames static keeps the base static. -/
theorem isStatic_base_modify (s : ScopeStack) (index : Nat) (f : ScopeFrame → ScopeFrame)
    (hf : ∀ frame, (f frame).isStatic = frame.isStatic) :
    (s.modify index f).base.isStatic = s.base.isStatic := by
  unfold ScopeStack.modify
  split
  · exact hf s.base
  · split <;> rfl

/-- No step makes the base anything but static: it is never left, and only fields are added to it.
-/
theorem isStatic_base_apply {s : ScopeStack} (h : s.base.isStatic = true) (step : Step) :
    (s.apply step).base.isStatic = true := by
  cases step with
  | push => exact h
  | pop =>
    obtain ⟨base, above⟩ := s
    cases above <;> exact h
  | reset => rfl
  | addInstance index name =>
    exact (isStatic_base_modify s index (.addInstance name) fun _ => rfl).trans h
  | addStatic index name =>
    exact (isStatic_base_modify s index (.addStatic name) fun _ => rfl).trans h

/-- So the base is static after any steps. -/
theorem isStatic_base_foldl (steps : List Step) {s : ScopeStack} (h : s.base.isStatic = true) :
    (steps.foldl ScopeStack.apply s).base.isStatic = true := by
  induction steps generalizing s with
  | nil => exact h
  | cons step steps ih => exact ih (isStatic_base_apply h step)

/-! ## Looking names up -/

/-- In frames from the top down there is a wanted one with only passable ones before it iff one is
wanted of which all with greater indices are passable. -/
theorem exists_topmost_iff {α : Type} {Wanted Passable : α → Prop} (chain : List α) :
    (∃ inner f outer, chain = inner ++ f :: outer ∧ Wanted f ∧ ∀ g ∈ inner, Passable g) ↔
      ∃ (i : Nat) (f : α), chain.reverse[i]? = some f ∧ Wanted f ∧
        ∀ (j : Nat) (g : α), i < j → chain.reverse[j]? = some g → Passable g := by
  constructor
  · rintro ⟨inner, f, outer, rfl, hf, hinner⟩
    have hreverse : (inner ++ f :: outer).reverse = outer.reverse ++ f :: inner.reverse := by simp
    rw [hreverse]
    refine ⟨outer.length, f, by simp, hf, fun j g hj hg => hinner g ?_⟩
    -- reversed, what lies inside comes behind
    obtain ⟨k, rfl⟩ : ∃ k, j = outer.length + (k + 1) := ⟨j - outer.length - 1, by omega⟩
    rw [List.getElem?_append_right (by simp), List.length_reverse, Nat.add_sub_cancel_left,
      List.getElem?_cons_succ] at hg
    exact List.mem_reverse.mp (List.mem_of_getElem? hg)
  · rintro ⟨i, f, hi, hf, hpass⟩
    obtain ⟨hlt, hf'⟩ := List.getElem?_eq_some_iff.mp hi
    have hreverse : chain.reverse =
        chain.reverse.take i ++ f :: chain.reverse.drop (i + 1) := by
      rw [← hf', ← List.drop_eq_getElem_cons, List.take_append_drop]
    refine ⟨(chain.reverse.drop (i + 1)).reverse, f, (chain.reverse.take i).reverse, ?_, hf, ?_⟩
    · have hchain := congrArg List.reverse hreverse
      simpa using hchain
    · intro g hg
      obtain ⟨k, hk⟩ := List.mem_iff_getElem?.mp (List.mem_reverse.mp hg)
      rw [List.getElem?_drop] at hk
      exact hpass _ g (by omega) hk

/-- An instance field is seen exactly when some frame has it and no frame before that one is static.
-/
theorem instanceSeen_iff (name : String) (chain : List ScopeFrame) :
    instanceSeen name chain = true ↔ ∃ inner f outer, chain = inner ++ f :: outer ∧
      name ∈ f.instanceFields ∧ ∀ g ∈ inner, ¬ g.isStatic = true := by
  induction chain with
  | nil => simp [instanceSeen]
  | cons f outer ih =>
    rw [HiddenFieldRule.exists_in_view_cons, ← ih, instanceSeen]
    by_cases hname : name ∈ f.instanceFields
    · simp [hname]
    · by_cases hstatic : f.isStatic = true <;> simp [hname, hstatic]

/-- The two ways to look for an instance field agree. -/
theorem instanceSeen_eq (name : String) (chain : List ScopeFrame) :
    instanceSeen name chain =
      (ScopeStack.instanceChain chain).any fun f => f.instanceFields.contains name := by
  induction chain with
  | nil => rfl
  | cons f outer ih =>
    rw [instanceSeen, ScopeStack.instanceChain, ih]
    cases f.isStatic <;> cases hname : f.instanceFields.contains name <;>
      simp [hname, -List.contains_eq_mem]

/-! ## What an arena does -/

/-- Whether the links lead from each frame to the one right below it and end at the root, which is
static, so that they lead from the top past each frame once. -/
structure IsChained (a : ScopeArena) : Prop where
  root : ∃ f, a.frame? 0 = some f ∧ f.isStatic = true
  live : ∀ i, (∃ f, a.frame? i = some f) ↔ i < a.depth
  parent_root : a.parent? 0 = none
  parent : ∀ i, i + 1 < a.depth → a.parent? (i + 1) = some i
  indices : a.indices = (List.range a.depth).reverse

/-- What is seen from the top: all static fields, the instance fields of frames without a static
frame above them, and the name of the topmost frame that has one. -/
structure LooksUp (a : ScopeArena) : Prop where
  hasStatic : ∀ name, a.hasStatic name = true ↔
    ∃ i f, a.frame? i = some f ∧ name ∈ f.staticFields
  hasInstance : ∀ name, a.hasInstance name = true ↔
    ∃ i f, a.frame? i = some f ∧ name ∈ f.instanceFields ∧
      ∀ j g, i < j → a.frame? j = some g → ¬ g.isStatic = true
  enclosingType : ∀ name, a.enclosingType? = some name ↔
    ∃ i f, a.frame? i = some f ∧ f.typeName? = some name ∧
      ∀ j g, i < j → a.frame? j = some g → g.typeName? = none

/-- Only the root cannot be left, and trying to changes nothing. Otherwise the top is taken off. -/
structure Pops (a : ScopeArena) : Prop where
  fails : a.pop? = none ↔ a.depth = 1
  unchanged : a.pop? = none → a.apply .pop = a
  takes : ∀ f b, a.pop? = some (f, b) → a.apply .pop = b ∧ a.depth = b.depth + 1 ∧
    a.frame? b.depth = some f ∧ ∀ i < b.depth, b.frame? i = a.frame? i ∧ b.parent? i = a.parent? i

/-- Whether an arena has one frame changed in a certain way, and everything else as it was. -/
structure Changed (a b : ScopeArena) (index : Nat) (Change : ScopeFrame → ScopeFrame → Prop) :
    Prop where
  depth : b.depth = a.depth
  parent : ∀ i, b.parent? i = a.parent? i
  others : ∀ i, i ≠ index → b.frame? i = a.frame? i
  frame : ∃ f g, a.frame? index = some f ∧ b.frame? index = some g ∧ Change f g

/-- A field is added to one set of the frame with the index, if there is such a frame. -/
structure Adds (a : ScopeArena) : Prop where
  beyond : ∀ index name, a.depth ≤ index →
    a.addInstance index name = a ∧ a.addStatic index name = a
  toInstance : ∀ index name, index < a.depth → a.Changed (a.addInstance index name) index fun f g =>
    g = { f with instanceFields := g.instanceFields } ∧
      ∀ x, x ∈ g.instanceFields ↔ x = name ∨ x ∈ f.instanceFields
  toStatic : ∀ index name, index < a.depth → a.Changed (a.addStatic index name) index fun f g =>
    g = { f with staticFields := g.staticFields } ∧
      ∀ x, x ∈ g.staticFields ↔ x = name ∨ x ∈ f.staticFields

/-- Adds fields, static ones or others, to one frame. -/
def addAll (a : ScopeArena) (index : Nat) (fields : List (String × Bool)) : ScopeArena :=
  fields.foldl (fun a field =>
    if field.2 then a.addStatic index field.1 else a.addInstance index field.1) a

/-- A frame that is entered, filled and left is gone without a trace, and has what was put in. -/
def Restores (a : ScopeArena) : Prop :=
  ∀ isStatic typeName? fields, let b := a.push isStatic typeName?
    ∃ f, (b.addAll b.top fields).pop? = some (f, a) ∧ f.isStatic = isStatic ∧
      f.typeName? = typeName? ∧ (∀ name, name ∈ f.staticFields ↔ (name, true) ∈ fields) ∧
      ∀ name, name ∈ f.instanceFields ↔ (name, false) ∈ fields

/-- Whether an arena has the frames of a stack and says the same of them. -/
structure Refines (a : ScopeArena) (s : ScopeStack) : Prop where
  depth : a.depth = s.depth
  frame : ∀ i, a.frame? i = s.chain.reverse[i]?
  pop : a.pop?.map Prod.fst = s.pop?.map Prod.fst
  hasStatic : ∀ name, a.hasStatic name = s.hasStatic name
  hasInstance : ∀ name, a.hasInstance name = s.hasInstance name
  enclosingType : a.enclosingType? = s.enclosingType?

/-- The arena of a stack is chained, with the base of the stack as its root. -/
theorem isChained_ofStack {s : ScopeStack} (h : s.base.isStatic = true) :
    (ofStack s).IsChained := by
  refine ⟨⟨s.base, ?_, h⟩, fun i => ?_, parent?_ofFrames_zero _ _, fun i hi => ?_, ?_⟩
  · rw [ofStack, frame?_ofFrames]
    simp
  · rw [ofStack, frame?_ofFrames, depth_ofFrames, ← Option.isSome_iff_exists]
    simp
  · rw [ofStack, depth_ofFrames] at hi
    exact parent?_ofFrames _ _ (by omega)
  · rw [ofStack, indices_ofFrames, depth_ofFrames]

/-- Look-ups in the arena of a stack are those of its chain. Each of the three is brought to
indices, since the claim about an arena speaks of handles and not of lists. -/
theorem looksUp_ofStack (s : ScopeStack) : (ofStack s).LooksUp := by
  have hchain : (ofStack s).chain = s.chain := chain_ofFrames s.base s.above
  have hframe : ∀ i, (ofStack s).frame? i = s.chain.reverse[i]? := frame?_ofFrames s.base s.above
  refine ⟨fun name => ?_, fun name => ?_, fun name => ?_⟩
  · simp only [hasStatic, hchain, hframe, List.any_eq_true, List.contains_iff_mem]
    constructor
    · rintro ⟨f, hf, hname⟩
      obtain ⟨i, hi⟩ := List.mem_iff_getElem?.mp (List.mem_reverse.mpr hf)
      exact ⟨i, f, hi, hname⟩
    · rintro ⟨i, f, hi, hname⟩
      exact ⟨f, List.mem_reverse.mp (List.mem_of_getElem? hi), hname⟩
  · simp only [hasInstance, hchain, hframe, instanceSeen_iff]
    exact exists_topmost_iff s.chain
  · simp only [enclosingType?, hchain, hframe, List.findSome?_eq_some_iff]
    exact exists_topmost_iff s.chain

/-- From a single frame nothing is popped. -/
theorem pops_root (base : ScopeFrame) : (root base).Pops where
  fails := iff_of_true (pop?_root base) rfl
  unchanged _ := rfl
  takes _ _ h := nomatch (pop?_root base).symm.trans h

/-- From more frames the top is popped, with all others left as they are. -/
theorem pops_cover (a : ScopeArena) (f : ScopeFrame) : (a.cover f).Pops where
  fails := by
    have hpos : 0 < a.depth := a.nonempty
    rw [pop?_cover, depth_cover]
    exact iff_of_false nofun (by omega)
  unchanged h := nomatch (pop?_cover a f).symm.trans h
  takes g b h := by
    rw [pop?_cover, Option.some.injEq, Prod.mk.injEq] at h
    obtain ⟨rfl, rfl⟩ := h
    refine ⟨?_, depth_cover a f, ?_, fun i hi => ⟨?_, ?_⟩⟩
    · rw [apply, pop?_cover]
      rfl
    · rw [frame?_cover, if_pos rfl]
    · rw [frame?_cover, if_neg (Nat.ne_of_lt hi)]
    · rw [parent?_cover, if_neg (Nat.ne_of_lt hi)]

/-- A stack has a top to pop exactly when it is not just its base. -/
theorem pops_ofStack (s : ScopeStack) : (ofStack s).Pops := by
  obtain ⟨base, above⟩ := s
  cases above with
  | nil => exact pops_root base
  | cons f above => exact pops_cover (ofFrames base above) f

/-- A stale handle, whose frame is gone, changes nothing. -/
theorem modify_of_depth_le {a : ScopeArena} {index : Nat} (h : a.depth ≤ index)
    (f : ScopeFrame → ScopeFrame) : a.modify index f = a := by
  refine ext_frames (Array.ext_getElem? fun i => ?_)
  rw [modify, Array.getElem?_modify]
  split
  · next hi =>
    rw [← hi, Array.getElem?_eq_none h]
    rfl
  · rfl

/-- A live handle changes its own frame as wanted, and nothing else. -/
theorem changed_modify {a : ScopeArena} {index : Nat} (h : index < a.depth)
    {f : ScopeFrame → ScopeFrame} {Change : ScopeFrame → ScopeFrame → Prop}
    (hf : ∀ frame, Change frame (f frame)) : a.Changed (a.modify index f) index Change where
  depth := depth_modify a index f
  parent := parent?_modify a index f
  others i hi := by rw [frame?_modify, if_neg hi]
  frame := by
    have hframe : a.frame? index = some a.frames[index].frame := by
      rw [frame?, Array.getElem?_eq_getElem h, Option.map_some]
    exact ⟨_, _, hframe, by rw [frame?_modify, if_pos rfl, hframe, Option.map_some], hf _⟩

/-- Both ways to add a field are changes of one frame, by the sets of names they insert into. -/
theorem adds (a : ScopeArena) : a.Adds where
  beyond _ _ h := ⟨modify_of_depth_le h _, modify_of_depth_le h _⟩
  toInstance _ _ h := changed_modify h fun _ => ⟨rfl, fun _ => mem_insertName⟩
  toStatic _ _ h := changed_modify h fun _ => ⟨rfl, fun _ => mem_insertName⟩

/-- Fields that are added to the frame on top are fields of that frame. -/
theorem addAll_cover (a : ScopeArena) (f : ScopeFrame) (fields : List (String × Bool)) :
    (a.cover f).addAll a.depth fields = a.cover (fields.foldl .addField f) := by
  induction fields generalizing f with
  | nil => rfl
  | cons field fields ih =>
    have hfield : (if field.2 then (a.cover f).addStatic a.depth field.1
        else (a.cover f).addInstance a.depth field.1) = a.cover (f.addField field) := by
      unfold ScopeFrame.addField addStatic addInstance
      split
      · rw [modify_cover, if_pos rfl]
      · rw [modify_cover, if_pos rfl]
    rw [addAll, List.foldl_cons, hfield]
    exact ih (f.addField field)

/-- A frame that was pushed, filled and popped gives the arena back, since filling changes the top
alone. -/
theorem restores (a : ScopeArena) : a.Restores := by
  intro isStatic typeName? fields b
  have htop : b.top = a.depth := by simp [b, push, top, cover, depth]
  refine ⟨fields.foldl .addField (.new isStatic typeName?), ?_, ?_, ?_, fun name => ?_,
    fun name => ?_⟩
  · rw [htop]
    show ((a.cover _).addAll a.depth fields).pop? = _
    rw [addAll_cover, pop?_cover]
  · exact ScopeFrame.isStatic_foldl_addField fields _
  · exact ScopeFrame.typeName?_foldl_addField fields _
  · rw [ScopeFrame.mem_staticFields_foldl_addField]
    simp [ScopeFrame.new]
  · rw [ScopeFrame.mem_instanceFields_foldl_addField]
    simp [ScopeFrame.new]

/-- The arena of a stack says of every handle and every name what the stack says. -/
theorem refines_ofStack (s : ScopeStack) : (ofStack s).Refines s := by
  have hchain : (ofStack s).chain = s.chain := chain_ofFrames s.base s.above
  refine ⟨depth_ofFrames s.base s.above, frame?_ofFrames s.base s.above, ?_, fun name => ?_,
    fun name => ?_, ?_⟩
  · obtain ⟨base, above⟩ := s
    cases above with
    | nil => rfl
    | cons f above =>
      rw [ofStack, ofFrames, pop?_cover]
      rfl
  · rw [hasStatic, hchain]
    rfl
  · rw [hasInstance, hchain, instanceSeen_eq]
    rfl
  · rw [enclosingType?, hchain]
    rfl

/-- Whatever is done to an arena, with handles of whatever frames, it is a plain stack of frames:
its links lead down from frame to frame, and names are looked up, frames left and fields added as on
the stack to which the same is done. -/
theorem refines_of_steps (steps : List Step) :
    let a := steps.foldl apply new
    a.IsChained ∧ a.LooksUp ∧ a.Pops ∧ a.Adds ∧ a.Restores ∧
      a.Refines (steps.foldl ScopeStack.apply ScopeStack.new) := by
  have ha : steps.foldl apply new = ofStack (steps.foldl ScopeStack.apply ScopeStack.new) :=
    foldl_apply_ofStack steps ScopeStack.new
  rw [ha]
  exact ⟨isChained_ofStack (isStatic_base_foldl steps rfl), looksUp_ofStack _, pops_ofStack _,
    adds _, restores _, refines_ofStack _⟩

end ScopeArena

end FieldShadow
