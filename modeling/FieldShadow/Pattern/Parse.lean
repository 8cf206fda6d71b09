import FieldShadow.Pattern.Machine.Layout
import FieldShadow.Pattern.Bracket
import FieldShadow.Pattern.Bounds
import FieldShadow.Pattern.GroupStart

/-!
# Reading patterns

A pattern is read from left to right. The expressions read so far in the innermost open group are
kept in a `Draft`, and the groups around it on a stack; flags that are set hold up to the end of the
group they are set in.
-/

namespace FieldShadow.Pattern

/-- A group that is being read: whether it captures, its finished alternatives and the parts of the
current one, both latest first, and the settings in force. -/
structure Draft where
  captures : Bool
  flags : Flags
  alternatives : List Expr
  parts : List Expr

/-- A group without anything in it. -/
def Draft.new (captures : Bool) (flags : Flags) : Draft :=
  ⟨captures, flags, [], []⟩

/-- Adds a part to the current alternative. -/
def Draft.push (d : Draft) (e : Expr) : Draft :=
  { d with parts := e :: d.parts }

/-- Begins another alternative. -/
def Draft.alternate (d : Draft) : Draft :=
  { d with alternatives := .ofSequence d.parts.reverse :: d.alternatives, parts := [] }

/-- The expression of the whole group. -/
def Draft.toExpr (d : Draft) : Expr :=
  let last := Expr.ofSequence d.parts.reverse
  match d.alternatives with
  | [] => last
  | earlier => .choice (last :: earlier).reverse

/-- Repeats the last part. There has to be one, and a setting is none. -/
def Draft.repeat? (d : Draft) (least : Nat) (most : Option Nat) (greedy : Bool) : Option Draft :=
  match d.parts with
  | [] | .setting :: _ => none
  | last :: others => some { d with parts := .repeated last least most greedy :: others }

/-- Adds a class. Where a pattern is read byte by byte, it must be built from ASCII. -/
def Draft.pushClass? (d : Draft) (k : CharClass) : Option Draft :=
  if !d.flags.unicode && !k.isAscii then none else some (d.push (.one k !d.flags.unicode))

/-- Adds a character that stands for itself. -/
def Draft.pushLiteral (d : Draft) (c : Char) : Draft :=
  d.push (.one (.single c d.flags.caseRule) !d.flags.unicode)

/-- A pattern that is being read: the innermost open group, the drafts around it, and the names
given to groups. -/
structure Reading where
  draft : Draft
  outer : List Draft
  names : List String

/-- Opens a group in which the given settings hold. -/
def Reading.openGroup (r : Reading) (captures : Bool) (flags : Flags) : Reading :=
  { r with draft := .new captures flags, outer := r.draft :: r.outer }

/-- Opens a group with a name, which must be new. -/
def Reading.openNamed? (r : Reading) (name : String) : Option Reading :=
  if r.names.contains name then none
  else some { r.openGroup true r.draft.flags with names := name :: r.names }

/-- Closes the innermost group. -/
def Reading.closeGroup? (r : Reading) : Option Reading :=
  match r.outer with
  | [] => none
  | parent :: outer =>
    some { r with draft := parent.push (.group r.draft.captures r.draft.toExpr), outer := outer }

/-- Reads the start of a group, or flags, behind an opening parenthesis. -/
def Reading.parenthesis? (r : Reading) (cs : List Char) : Option (Reading × List Char) :=
  let named (cs : List Char) : Option (Reading × List Char) := do
    let (name, rest) ← groupName cs
    return (← r.openNamed? name, rest)
  match spaced r.draft.flags.verbose cs with
  | '?' :: 'P' :: '<' :: rest => named rest
  | '?' :: '<' :: rest => named rest
  | '?' :: rest => do
    let ((flags, opens), rest) ← readFlags r.draft.flags [] false false rest
    if opens then return (r.openGroup false flags, rest)
    else return ({ r with draft := { r.draft.push .setting with flags := flags } }, rest)
  | rest => some (r.openGroup true r.draft.flags, rest)

theorem Reading.length_parenthesis?_le {r r' : Reading} {cs rest : List Char}
    (h : r.parenthesis? cs = some (r', rest)) : rest.length ≤ cs.length := by
  have hs := length_spaced_le r.draft.flags.verbose cs
  have named {cs : List Char} (h : (do
      let (name, rest) ← groupName cs
      return (← r.openNamed? name, rest)) = some (r', rest)) : rest.length ≤ cs.length := by
    simp only [Option.bind_eq_bind, Option.bind_eq_some_iff, Option.pure_def, Option.some.injEq,
      Prod.mk.injEq] at h
    obtain ⟨_, hn, _, -, -, rfl⟩ := h
    exact length_groupName_le hn
  unfold Reading.parenthesis? at h
  split at h
  · rename_i heq
    rw [heq] at hs
    have := named h
    simp only [List.length_cons] at hs
    omega
  · rename_i heq
    rw [heq] at hs
    have := named h
    simp only [List.length_cons] at hs
    omega
  · rename_i heq
    rw [heq, List.length_cons] at hs
    simp only [Option.bind_eq_bind, Option.bind_eq_some_iff] at h
    obtain ⟨⟨_, _⟩, hf, h⟩ := h
    have := length_readFlags_le hf
    split at h <;> simp only [Option.pure_def, Option.some.injEq, Prod.mk.injEq] at h <;>
      rw [← h.2] <;> omega
  · simp only [Option.some.injEq, Prod.mk.injEq] at h
    rw [← h.2]
    exact hs

/-- Replaces the innermost draft and goes on with what is left to read. -/
def Reading.put (r : Reading) (rest : List Char) (d : Draft) : Reading × List Char :=
  ({ r with draft := d }, rest)

/-- Repeats the last part, behind the bounds of the repetition. -/
def Reading.repeat? (r : Reading) (least : Nat) (most : Option Nat) (cs : List Char) :
    Option (Reading × List Char) :=
  let (greedy, rest) := lazyMark r.draft.flags cs
  (r.draft.repeat? least most greedy).map (r.put rest)

theorem Reading.length_repeat?_le {r r' : Reading} {least : Nat} {most : Option Nat}
    {cs rest : List Char} (h : r.repeat? least most cs = some (r', rest)) :
    rest.length ≤ cs.length := by
  simp only [Reading.repeat?, Reading.put, Option.map_eq_some_iff, Prod.mk.injEq] at h
  obtain ⟨_, -, -, rfl⟩ := h
  exact length_lazyMark_le r.draft.flags cs

/-- Adds what an escape stands for. A character that is written as a byte must be ASCII where a
pattern is read byte by byte. -/
def Draft.pushEscape? (d : Draft) : Escape → Option Draft
  | .literal c byte =>
    if byte && !d.flags.unicode && 0x80 ≤ c.toNat then none else some (d.pushLiteral c)
  | .named k negated => d.pushClass? (.named k .exact negated)
  | .anchor a => some (d.push (.anchor a))

/-- The class of a dot. -/
def Flags.dotClass (f : Flags) : CharClass :=
  if f.dotAll then .named .anything .exact false
  else .named (if f.carriageReturns then .lineEnd else .lineFeed) .exact true

/-- The condition of a circumflex. -/
def Flags.startAnchor (f : Flags) : Anchor :=
  if f.multiLine then .lineStart f.carriageReturns else .textStart

/-- The condition of a dollar sign. -/
def Flags.endAnchor (f : Flags) : Anchor :=
  if f.multiLine then .lineEnd f.carriageReturns else .textEnd

/-- Reads one part of a pattern, which begins with `c`. -/
def Reading.step? (r : Reading) (c : Char) (rest : List Char) : Option (Reading × List Char) :=
  let d := r.draft
  match c with
  | '(' => r.parenthesis? rest
  | ')' => r.closeGroup?.map (·, rest)
  | '|' => some (r.put rest d.alternate)
  | '[' => do
    let (k, rest) ← charClass d.flags rest
    (d.pushClass? k).map (r.put rest)
  | '?' => r.repeat? 0 (some 1) rest
  | '*' => r.repeat? 0 none rest
  | '+' => r.repeat? 1 none rest
  | '{' => do
    let ((least, most), rest) ← bounds d.flags.verbose rest
    r.repeat? least most rest
  | '.' => (d.pushClass? d.flags.dotClass).map (r.put rest)
  | '^' => some (r.put rest (d.push (.anchor d.flags.startAnchor)))
  | '$' => some (r.put rest (d.push (.anchor d.flags.endAnchor)))
  | '\\' => do
    let (e, rest) ← escape d.flags rest
    (d.pushEscape? e).map (r.put rest)
  | c => some (r.put rest (d.pushLiteral c))

theorem Reading.length_step?_le {r r' : Reading} {c : Char} {cs rest : List Char}
    (h : r.step? c cs = some (r', rest)) : rest.length ≤ cs.length := by
  unfold Reading.step? at h
  split at h
  · exact Reading.length_parenthesis?_le h
  · simp only [Option.map_eq_some_iff, Prod.mk.injEq] at h
    obtain ⟨_, -, -, rfl⟩ := h
    exact Nat.le_refl _
  · simp only [Reading.put, Option.some.injEq, Prod.mk.injEq] at h
    exact Nat.le_of_eq (congrArg _ h.2.symm)
  · simp only [Reading.put, Option.bind_eq_bind, Option.bind_eq_some_iff,
      Option.map_eq_some_iff, Prod.mk.injEq] at h
    obtain ⟨_, hk, _, -, -, rfl⟩ := h
    exact length_charClass_le hk
  · exact Reading.length_repeat?_le h
  · exact Reading.length_repeat?_le h
  · exact Reading.length_repeat?_le h
  · simp only [Option.bind_eq_bind, Option.bind_eq_some_iff] at h
    obtain ⟨⟨⟨_, _⟩, _⟩, hb, h⟩ := h
    exact Nat.le_trans (Reading.length_repeat?_le h) (length_bounds_le hb)
  · simp only [Reading.put, Option.map_eq_some_iff, Prod.mk.injEq] at h
    obtain ⟨_, -, -, rfl⟩ := h
    exact Nat.le_refl _
  · simp only [Reading.put, Option.some.injEq, Prod.mk.injEq] at h
    exact Nat.le_of_eq (congrArg _ h.2.symm)
  · simp only [Reading.put, Option.some.injEq, Prod.mk.injEq] at h
    exact Nat.le_of_eq (congrArg _ h.2.symm)
  · simp only [Reading.put, Option.bind_eq_bind, Option.bind_eq_some_iff,
      Option.map_eq_some_iff, Prod.mk.injEq] at h
    obtain ⟨_, he, _, -, -, rfl⟩ := h
    exact Nat.le_of_lt (length_escape_lt he)
  · simp only [Reading.put, Option.some.injEq, Prod.mk.injEq] at h
    exact Nat.le_of_eq (congrArg _ h.2.symm)

/-- Reads a pattern to its end. -/
def Reading.run (r : Reading) (cs : List Char) : Option Reading :=
  match _h : spaced r.draft.flags.verbose cs with
  | [] => some r
  | c :: rest =>
    match _hs : r.step? c rest with
    | none => none
    | some (next, rest) => next.run rest
termination_by cs.length
decreasing_by
  have := length_spaced_le r.draft.flags.verbose cs
  rw [_h, List.length_cons] at this
  have := Reading.length_step?_le _hs
  omega

/-- The deepest nesting that an expression may have. -/
def Expr.depthLimit : Nat := 250

/-- Whether an expression is small enough to be used. -/
def Expr.isWithinLimits (e : Expr) : Bool :=
  e.depth ≤ depthLimit && e.core.hasMachines

/-- The expression that a text is a pattern for. All groups have to be closed, and the expression
has to be within the limits. -/
def Expr.parse? (text : String) : Option Expr := do
  let r ← Reading.run ⟨.new false {}, [], []⟩ text.toList
  let e := r.draft.toExpr
  if r.outer.isEmpty && e.isWithinLimits then some e else none

end FieldShadow.Pattern
