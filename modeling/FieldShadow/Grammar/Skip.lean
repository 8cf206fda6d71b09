import FieldShadow.Grammar.Cursor

/-!
# What is passed over

Annotations, type arguments, the clauses of a type header and bracketed groups leave no node
behind. Each is read here up to the place where it ends.
-/

namespace FieldShadow.Cursor

/-- Passes a package or import directive, up to and with its semicolon. -/
def directive (c : Cursor) : Except SyntaxError (After c Unit) :=
  match c.view with
  | .stop => .error (c.fault .directiveEnd)
  | .token t _ rest h =>
    if t = .semicolon then .ok ⟨(), rest, h⟩
    else do
      let ⟨_, c', h'⟩ ← rest.directive
      return ⟨(), c', h'.trans h⟩
termination_by c.remaining

/-- Passes a bracketed group, `depth` of whose brackets are open. Brackets of all three kinds count
alike. -/
def bracketed (c : Cursor) (depth : Nat) : Except SyntaxError (After c Unit) :=
  match c.view with
  | .stop => .error (c.fault .balancedBrackets)
  | .token t _ rest h =>
    if t.closes && depth ≤ 1 then .ok ⟨(), rest, h⟩
    else do
      let depth' := if t.opens then depth + 1 else if t.closes then depth - 1 else depth
      let ⟨_, c', h'⟩ ← rest.bracketed depth'
      return ⟨(), c', h'.trans h⟩
termination_by c.remaining

/-- The tokens that type arguments are made of, apart from the angle brackets. -/
def inTypeArguments : Token → Bool
  | .identifier _ | .operator _ | .comma | .dot | .at | .leftBracket | .rightBracket => true
  | _ => false

/-- Passes type arguments, `depth` of whose angle brackets are open. -/
def typeArguments (c : Cursor) (depth : Nat) : Except SyntaxError (After c Unit) :=
  match c.view with
  | .stop => .error (c.fault .typeArguments)
  | .token t _ rest h =>
    if t = .greater ∧ depth ≤ 1 then .ok ⟨(), rest, h⟩
    else if t = .less ∨ t = .greater ∨ inTypeArguments t then do
      let depth' := if t = .less then depth + 1 else if t = .greater then depth - 1 else depth
      let ⟨_, c', h'⟩ ← rest.typeArguments depth'
      return ⟨(), c', h'.trans h⟩
    else .error (c.fault .typeArguments)
termination_by c.remaining

/-- Passes type arguments if they stand here. -/
def typeArguments? (c : Cursor) : Except SyntaxError (From c Unit) :=
  if c.current = .less then (c.typeArguments 0).map After.toFrom else .ok (c.stay ())

/-- Passes the further parts of a qualified name. -/
def qualifiers (c : Cursor) : From c Unit :=
  match c.view with
  | .token .dot _ dotted h =>
    match dotted.view with
    | .token (.identifier _) _ rest h' =>
      let ⟨_, c', h''⟩ := rest.qualifiers
      ⟨(), c', ((h''.trans_lt h').trans h).le⟩
    | _ => c.stay ()
  | _ => c.stay ()
termination_by c.remaining

/-- Passes one annotation. -/
def annotationUse (c : Cursor) : Except SyntaxError (After c Unit) := do
  let ⟨_, c₁, h₁⟩ ← c.expect .annotationSign
  let ⟨_, c₂, h₂⟩ ← c₁.name .annotationType
  let ⟨_, c₃, h₃⟩ := c₂.qualifiers
  if c₃.current = .leftParen then
    let ⟨_, c₄, h₄⟩ ← c₃.bracketed 0
    return ⟨(), c₄, ((h₄.trans_le h₃).trans h₂).trans h₁⟩
  else
    return ⟨(), c₃, (h₃.trans_lt h₂).trans h₁⟩

/-- Passes all annotations that stand here. -/
def annotationUses (c : Cursor) : Except SyntaxError (From c Unit) :=
  if c.current = .at then do
    let ⟨_, c₁, h₁⟩ ← c.annotationUse
    let ⟨_, c₂, h₂⟩ ← c₁.annotationUses
    return ⟨(), c₂, (h₂.trans_lt h₁).le⟩
  else
    return c.stay ()
termination_by c.remaining

/-- Passes the rest of a header up to the opening brace of a body. -/
def header (c : Cursor) : Except SyntaxError (From c Unit) :=
  match c.view with
  | .stop => .error (c.fault .typeBody)
  | .token t _ rest h =>
    if t = .leftBrace then .ok (c.stay ())
    else if t = .semicolon then .error (c.fault .typeBody)
    else do
      let ⟨_, c', h'⟩ ← rest.header
      return ⟨(), c', (h'.trans_lt h).le⟩
termination_by c.remaining

end FieldShadow.Cursor
