import FieldShadow.Pattern.Escape

/-!
# Bracketed classes

A bracketed class holds items, nested classes and operators between them. The classes around the
innermost open one are kept on a stack while it is read. The lemmas say that every step leaves less
to read.
-/

namespace FieldShadow.Pattern

/-- Reads a named class inside brackets, behind its opening bracket. -/
def asciiClass? : List Char → Option ((NamedClass × Bool) × List Char)
  | ':' :: rest =>
    let negated := rest.head? == some '^'
    let rest := if negated then rest.drop 1 else rest
    match rest.dropWhile (· != ':') with
    | ':' :: ']' :: behind =>
      (NamedClass.ofName? (String.ofList (rest.takeWhile (· != ':')))).map fun k =>
        ((k, negated), behind)
    | _ => none
  | _ => none

theorem length_asciiClass?_le {k : NamedClass × Bool} {cs rest : List Char}
    (h : asciiClass? cs = some (k, rest)) : rest.length ≤ cs.length := by
  unfold asciiClass? at h
  split at h
  · rename_i tail
    simp only at h
    have h1 : (if (tail.head? == some '^') = true then tail.drop 1 else tail).length ≤
        tail.length := by
      split <;> simp
    have h2 := (List.dropWhile_sublist (· != ':')
      (l := if (tail.head? == some '^') = true then tail.drop 1 else tail)).length_le
    split at h
    · rename_i heq
      simp only [Option.map_eq_some_iff, Prod.mk.injEq] at h
      obtain ⟨_, -, -, rfl⟩ := h
      simp only [heq, List.length_cons] at h2
      simp only [List.length_cons]
      omega
    · simp at h
  · simp at h

/-- The character that decides whether a dash makes a range: the first one behind it, past white
space and one comment sign in a verbose pattern. -/
def peekBehindDash (verbose : Bool) (cs : List Char) : Option Char :=
  if verbose then
    let past := match cs.dropWhile Unicode.isWhiteSpace with
      | '#' :: rest => rest.dropWhile Unicode.isWhiteSpace
      | rest => rest
    past.head? <|> cs.head?
  else cs.head?

/-- Reads one character or escape inside brackets. -/
def classAtom (f : Flags) : List Char → Option (Escape × List Char)
  | [] => none
  | '\\' :: rest => escape f rest
  | c :: rest => some (.literal c false, rest)

/-- A member of a class takes one character at least. -/
theorem length_classAtom_lt {f : Flags} {cs rest : List Char} {e : Escape}
    (h : classAtom f cs = some (e, rest)) : rest.length < cs.length := by
  unfold classAtom at h
  split at h
  · simp at h
  · have := length_escape_lt h
    simp only [List.length_cons]
    omega
  · simp only [Option.some.injEq, Prod.mk.injEq] at h
    simp [h.2]

/-- Reads one item of a bracketed class: a range, a single character or a named class. -/
def classItem (f : Flags) (cs : List Char) : Option (CharClass × List Char) := do
  let (low, rest) ← classAtom f cs
  match spaced f.verbose rest with
  | [] => none
  | '-' :: behind =>
    let next := peekBehindDash f.verbose behind
    if next = some ']' ∨ next = some '-' then low.toClass?.map (·, '-' :: behind)
    else
      let (high, rest) ← classAtom f (spaced f.verbose behind)
      match low, high with
      | .literal a _, .literal b _ => if a ≤ b then some (.range a b, rest) else none
      | _, _ => none
  | rest => low.toClass?.map (·, rest)

theorem length_classItem_lt {f : Flags} {cs rest : List Char} {k : CharClass}
    (h : classItem f cs = some (k, rest)) : rest.length < cs.length := by
  simp only [classItem, Option.bind_eq_bind, Option.bind_eq_some_iff] at h
  obtain ⟨⟨low, r⟩, ha, h⟩ := h
  dsimp only at h
  have h1 := length_classAtom_lt ha
  have h2 := length_spaced_le f.verbose r
  split at h
  · simp at h
  · rename_i behind heq
    rw [heq, List.length_cons] at h2
    split at h
    · simp only [Option.map_eq_some_iff, Prod.mk.injEq] at h
      obtain ⟨_, -, -, rfl⟩ := h
      rw [List.length_cons]
      omega
    · simp only [Option.bind_eq_some_iff] at h
      obtain ⟨⟨high, r2⟩, hb, h⟩ := h
      have h3 := length_classAtom_lt hb
      have h4 := length_spaced_le f.verbose behind
      split at h
      · split at h
        · simp only [Option.some.injEq, Prod.mk.injEq] at h
          rw [← h.2]
          omega
        · simp at h
      · simp at h
  · simp only [Option.map_eq_some_iff, Prod.mk.injEq] at h
    obtain ⟨_, -, -, rfl⟩ := h
    omega

/-- A bracketed class that is being read: the items since its last operator, latest first, and
the operator with its left side. -/
structure OpenClass where
  negated : Bool
  left? : Option (SetOp × CharClass)
  items : List CharClass

/-- The class of everything between the brackets so far. -/
def OpenClass.inner (k : OpenClass) (rule : CaseRule) : CharClass :=
  let right := CharClass.ofParts k.items.reverse
  match k.left? with
  | none => right
  | some (op, left) => .combined op rule left right

/-- The class with its brackets closed. -/
def OpenClass.close (k : OpenClass) (rule : CaseRule) : CharClass :=
  .bracketed k.negated rule (k.inner rule)

/-- Adds an item to a class that is being read. -/
def OpenClass.push (k : OpenClass) (item : CharClass) : OpenClass :=
  { k with items := item :: k.items }

/-- Begins the right side of an operator. -/
def OpenClass.operate (k : OpenClass) (op : SetOp) (rule : CaseRule) : OpenClass :=
  { k with left? := some (op, k.inner rule), items := [] }

/-- Passes the dashes that stand for themselves at the start of a class. -/
def leadingDashes (verbose : Bool) (k : OpenClass) (cs : List Char) : OpenClass × List Char :=
  match cs with
  | '-' :: rest => leadingDashes verbose (k.push (.range '-' '-')) (spaced verbose rest)
  | cs => (k, cs)
termination_by cs.length
decreasing_by
  have := length_spaced_le verbose rest
  simp only [List.length_cons]
  omega

theorem length_leadingDashes_le (verbose : Bool) (k : OpenClass) (cs : List Char) :
    (leadingDashes verbose k cs).2.length ≤ cs.length := by
  fun_induction leadingDashes verbose k cs with
  | case1 k rest ih =>
    have := length_spaced_le verbose rest
    simp only [List.length_cons]
    omega
  | case2 => simp

/-- Reads the start of a class behind its opening bracket. A closing bracket that comes first stands
for itself. -/
def openClass (verbose : Bool) (cs : List Char) : OpenClass × List Char :=
  let (negated, cs) := match spaced verbose cs with
    | '^' :: rest => (true, spaced verbose rest)
    | cs => (false, cs)
  match leadingDashes verbose ⟨negated, none, []⟩ cs with
  | (k, ']' :: rest) =>
    if k.items.isEmpty then (k.push (.range ']' ']'), spaced verbose rest) else (k, ']' :: rest)
  | result => result

theorem length_openClass_le (verbose : Bool) (cs : List Char) :
    (openClass verbose cs).2.length ≤ cs.length := by
  unfold openClass
  have h0 := length_spaced_le verbose cs
  split
  rename_i negated cs' heq
  have h1 : cs'.length ≤ cs.length := by
    split at heq
    · rename_i rest h'
      have := length_spaced_le verbose rest
      simp only [h', List.length_cons] at h0
      simp only [Prod.mk.injEq] at heq
      rw [← heq.2]
      omega
    · simp only [Prod.mk.injEq] at heq
      rw [← heq.2]
      exact h0
  have h2 := length_leadingDashes_le verbose ⟨negated, none, []⟩ cs'
  split
  · rename_i k rest h'
    have := length_spaced_le verbose rest
    simp only [h', List.length_cons] at h2
    split <;> simp only [List.length_cons] <;> omega
  · omega

/-- Reads one item, operator or opening bracket of a class; `outer` holds the classes around it. -/
def classStep (f : Flags) (k : OpenClass) (outer : List OpenClass) :
    List Char → Option ((OpenClass × List OpenClass) × List Char)
  | [] => none
  | '[' :: rest =>
    match asciiClass? rest with
    | some ((named, negated), rest) =>
      some ((k.push (.named named f.caseRule negated), outer), rest)
    | none =>
      let (nested, rest) := openClass f.verbose rest
      some ((nested, k :: outer), rest)
  | '&' :: '&' :: rest => some ((k.operate .intersection f.caseRule, outer), rest)
  | '-' :: '-' :: rest => some ((k.operate .difference f.caseRule, outer), rest)
  | '~' :: '~' :: rest => some ((k.operate .symmetricDifference f.caseRule, outer), rest)
  | cs => (classItem f cs).map fun r => ((k.push r.1, outer), r.2)

/-- A step through a class takes one character at least, on which the recursion rests. -/
theorem length_classStep_lt {f : Flags} {k : OpenClass} {outer : List OpenClass}
    {r : OpenClass × List OpenClass} {cs rest : List Char}
    (h : classStep f k outer cs = some (r, rest)) : rest.length < cs.length := by
  unfold classStep at h
  split at h
  · simp at h
  · rename_i tail
    split at h
    · rename_i heq
      have := length_asciiClass?_le heq
      simp only [Option.some.injEq, Prod.mk.injEq] at h
      rw [← h.2, List.length_cons]
      omega
    · have := length_openClass_le f.verbose tail
      simp only [Option.some.injEq, Prod.mk.injEq] at h
      rw [← h.2, List.length_cons]
      omega
  · simp only [Option.some.injEq, Prod.mk.injEq] at h
    rw [← h.2]
    simp only [List.length_cons]
    omega
  · simp only [Option.some.injEq, Prod.mk.injEq] at h
    rw [← h.2]
    simp only [List.length_cons]
    omega
  · simp only [Option.some.injEq, Prod.mk.injEq] at h
    rw [← h.2]
    simp only [List.length_cons]
    omega
  · simp only [Option.map_eq_some_iff, Prod.mk.injEq] at h
    obtain ⟨_, hi, -, rfl⟩ := h
    exact length_classItem_lt hi

/-- Reads a class up to its closing bracket; `outer` holds the classes around it. -/
def classRest (f : Flags) (k : OpenClass) (outer : List OpenClass) (cs : List Char) :
    Option (CharClass × List Char) :=
  match _h : spaced f.verbose cs with
  | ']' :: rest =>
    match outer with
    | [] => some (k.close f.caseRule, rest)
    | parent :: outer => classRest f (parent.push (k.close f.caseRule)) outer rest
  | _ =>
    match _hs : classStep f k outer (spaced f.verbose cs) with
    | none => none
    | some ((k, outer), rest) => classRest f k outer rest
termination_by cs.length
decreasing_by
  · have := length_spaced_le f.verbose cs
    rw [‹spaced f.verbose cs = _›, List.length_cons] at this
    omega
  · have := length_spaced_le f.verbose cs
    have := length_classStep_lt ‹classStep f _ _ _ = _›
    omega

theorem length_classRest_le {f : Flags} {k : OpenClass} {outer : List OpenClass}
    {c : CharClass} {cs rest : List Char} (h : classRest f k outer cs = some (c, rest)) :
    rest.length ≤ cs.length := by
  fun_induction classRest f k outer cs with
  | case1 k cs r heq =>
    have := length_spaced_le f.verbose cs
    rw [heq, List.length_cons] at this
    simp only [Option.some.injEq, Prod.mk.injEq] at h
    rw [← h.2]
    omega
  | case2 k cs r heq _ _ ih =>
    have := length_spaced_le f.verbose cs
    rw [heq, List.length_cons] at this
    have := ih h
    omega
  | case3 => simp at h
  | case4 k outer cs _ _ _ hs _ ih =>
    have := length_spaced_le f.verbose cs
    have := length_classStep_lt hs
    have := ih h
    omega

/-- Reads a class behind its opening bracket. -/
def charClass (f : Flags) (cs : List Char) : Option (CharClass × List Char) :=
  let (k, rest) := openClass f.verbose cs
  classRest f k [] rest

theorem length_charClass_le {f : Flags} {c : CharClass} {cs rest : List Char}
    (h : charClass f cs = some (c, rest)) : rest.length ≤ cs.length :=
  Nat.le_trans (length_classRest_le h) (length_openClass_le f.verbose cs)

end FieldShadow.Pattern
