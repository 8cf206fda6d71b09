import FieldShadow.Log

/-!
# The scope stack

For every type body around the place that a walk has reached there is a frame with the fields that
are declared directly in it. The frame of the compilation unit lies below all others; it counts as
static, has no fields of its own, and is never left. Frames are named by their index from below.
-/

namespace FieldShadow

/-- Adds a name to an increasing list of names, unless it is there. -/
def insertName (name : String) : List String → List String
  | [] => [name]
  | other :: names =>
    if name = other then other :: names
    else if name < other then name :: other :: names
    else other :: insertName name names

/-- A set of names with one more has that name and those it had. -/
theorem mem_insertName {name x : String} {names : List String} :
    x ∈ insertName name names ↔ x = name ∨ x ∈ names := by
  fun_induction insertName name names <;> grind

/-- The fields that are declared directly in one type body. The names are kept in increasing
order. -/
structure ScopeFrame where
  isStatic : Bool
  typeName? : Option String
  instanceFields : List String
  staticFields : List String
  deriving DecidableEq, Repr

namespace ScopeFrame

/-- A frame without fields. -/
def new (isStatic : Bool) (typeName? : Option String) : ScopeFrame :=
  ⟨isStatic, typeName?, [], []⟩

/-- Adds an instance field. -/
def addInstance (name : String) (f : ScopeFrame) : ScopeFrame :=
  { f with instanceFields := insertName name f.instanceFields }

/-- Adds a static field. -/
def addStatic (name : String) (f : ScopeFrame) : ScopeFrame :=
  { f with staticFields := insertName name f.staticFields }

end ScopeFrame

/-- The frames around a place: that of the compilation unit, and those above it, innermost first. -/
structure ScopeStack where
  base : ScopeFrame
  above : List ScopeFrame
  deriving DecidableEq, Repr

namespace ScopeStack

/-- The stack outside of all types. -/
def new : ScopeStack :=
  ⟨.new true none, []⟩

/-- The number of frames. -/
def depth (s : ScopeStack) : Nat :=
  s.above.length + 1

/-- The index of the innermost frame. -/
def top (s : ScopeStack) : Nat :=
  s.above.length

/-- The frames from the innermost outwards. -/
def chain (s : ScopeStack) : List ScopeFrame :=
  s.above ++ [s.base]

/-- Enters a type body without fields so far. -/
def push (s : ScopeStack) (isStatic : Bool) (typeName? : Option String) : ScopeStack :=
  { s with above := .new isStatic typeName? :: s.above }

/-- Leaves the innermost type body; the compilation unit cannot be left. -/
def pop? (s : ScopeStack) : Option (ScopeFrame × ScopeStack) :=
  match s.above with
  | [] => none
  | frame :: above => some (frame, { s with above })

/-- Nothing is popped exactly if there is no frame above the base. -/
theorem pop?_eq_none_iff {s : ScopeStack} : s.pop? = none ↔ s.above = [] := by
  unfold pop?
  split <;> simp_all

/-- Changes the frame with an index; without such a frame nothing changes. -/
def modify (s : ScopeStack) (index : Nat) (f : ScopeFrame → ScopeFrame) : ScopeStack :=
  if index = 0 then { s with base := f s.base }
  else if index ≤ s.above.length then
    { s with above := s.above.modify (s.above.length - index) f }
  else s

/-- Adds an instance field to a frame. -/
def addInstance (s : ScopeStack) (index : Nat) (name : String) : ScopeStack :=
  s.modify index (.addInstance name)

/-- Adds a static field to a frame. -/
def addStatic (s : ScopeStack) (index : Nat) (name : String) : ScopeStack :=
  s.modify index (.addStatic name)

/-- Whether a static field is seen: those of all frames are. -/
def hasStatic (s : ScopeStack) (name : String) : Bool :=
  s.chain.any fun frame => frame.staticFields.contains name

/-- The frames from the innermost outwards up to and with the first static one. -/
def instanceChain : List ScopeFrame → List ScopeFrame
  | [] => []
  | frame :: outer => if frame.isStatic then [frame] else frame :: instanceChain outer

/-- Whether an instance field is seen: a static type hides those of the types around it. -/
def hasInstance (s : ScopeStack) (name : String) : Bool :=
  (instanceChain s.chain).any fun frame => frame.instanceFields.contains name

/-- The name of the innermost type that has one. -/
def enclosingType? (s : ScopeStack) : Option String :=
  s.chain.findSome? ScopeFrame.typeName?

/-- A change of the stack. -/
inductive Step where
  | push (isStatic : Bool) (typeName? : Option String)
  | pop
  | reset
  | addInstance (index : Nat) (name : String)
  | addStatic (index : Nat) (name : String)
  deriving DecidableEq, Repr

/-- The stack after a change. A `pop` that is not possible changes nothing. -/
def apply (s : ScopeStack) : Step → ScopeStack
  | .push isStatic typeName? => s.push isStatic typeName?
  | .pop => (s.pop?.map Prod.snd).getD s
  | .reset => new
  | .addInstance index name => s.addInstance index name
  | .addStatic index name => s.addStatic index name

/-- What is logged of a change: frames that come and go by themselves. -/
def log (s : ScopeStack) : Step → List LogEvent
  | .push isStatic _ => [.framePushed s.depth isStatic]
  | .pop => if s.above.isEmpty then [] else [.framePopped s.top]
  | .reset | .addInstance .. | .addStatic .. => []

end ScopeStack

end FieldShadow
