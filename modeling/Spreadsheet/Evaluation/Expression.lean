-- SUMMARY: What expressions compute, as inquiries.
import Spreadsheet.Evaluation.Reading
import Spreadsheet.Function.Registry

/-! # Evaluating expressions

An expression becomes an inquiry by recursion on its parts. Operands are evaluated from
left to right. The arguments of a call are prepared by the kinds of the parameters: one
that cannot be converted ends the call with its error, and one that is left unevaluated is
evaluated when the function asks for it.
-/

namespace Spreadsheet

/-! ## Arguments -/

/-- An argument converted by its parameter, or the error that ends the call. -/
abbrev Prepared := Except ErrorValue Argument

/-- The scalar of an operand, converted. -/
def Site.prepareScalar {α : Type} (site : Site) (convert : Scalar → Except ErrorValue α)
    (result : α → Value) (operand : Operand) : Inquiry Prepared :=
  (site.read operand).bind fun v =>
    .done ((convert v.toScalar).map fun a => .value (result a))

/-- Prepares an argument for a parameter of a kind. -/
def Site.prepare (site : Site) (kind : ParamKind) (operand : Unit → Inquiry Operand) :
    Inquiry Prepared :=
  match kind with
  | .any => (operand ()).bind fun o => (site.read o).bind fun v => .done (.ok (.value v))
  | .number => (operand ()).bind (site.prepareScalar Scalar.toNumber .number)
  | .text => (operand ()).bind (site.prepareScalar Scalar.toText .text)
  | .bool => (operand ()).bind (site.prepareScalar Scalar.toBool .bool)
  | .areas =>
    (operand ()).bind fun
      | .reference r => (site.readAllUsed r.areas).bind fun ts => .done (.ok (.areas ts))
      | .value (.table t) => .done (.ok (.areas [t]))
      | .value v => .done (.ok (.value v))
  | .reference =>
    (operand ()).bind fun
      | .reference r => .done (.ok (.reference r))
      | .value v => .done (.ok (.value v))
  | .lazy => .done (.ok .lazy)

/-- The value that a function gets when it asks for an argument: that of the expression if the
argument was left unevaluated, else what the argument holds, or a blank. -/
def Argument.forced (expression : Unit → Inquiry Value) : Option Argument → Inquiry Value
  | some .lazy => expression ()
  | some (.value v) => .done v
  | _ => .done .blank

/-- Calls a function with prepared arguments. `expression` gives the value of the argument at
an index. -/
def Function.call (f : Function) (site : Site) (args : List Argument)
    (expression : Nat → Inquiry Value) : Inquiry Operand :=
  match f.implementation with
  | .pure g => .done (.value (g args))
  | .contextual g =>
    match g site args with
    | .value v => .done (.value v)
    | .force i resume =>
      (Argument.forced (fun () => expression i) args[i]?).bind fun v => .done (.value (resume v))
  | .reference g => .done (g site args)
  | .abort => .fail .aborted

namespace Formula.Expr

/-! ## Expressions -/

mutual

/-- What the expression gives where a reference is welcome. -/
def operand (registry : Registry) (site : Site) : Expr → Inquiry Operand
  | .literal s => .done (.value (.scalar s))
  | .table t => .done (.value (.table t))
  | .cell sheet? coord =>
    .done <| match site.sheet? sheet? with
      | some sheet => .ofArea (.ofCell (coord.on sheet))
      | none => .error .reference
  | .area sheet? corners =>
    .done <| match site.sheet? sheet? with
      | some sheet => .ofArea (corners.on sheet)
      | none => .error .reference
  | .name word => .done (site.named word)
  | .unary op e =>
    (e.operand registry site).bind fun o => (site.read o).bind fun v =>
      .done (.value (op.onValue v))
  | .binary .range l r =>
    (l.operand registry site).bind fun a => (r.operand registry site).bind fun b =>
      .done (a.between b)
  | .binary op l r =>
    (l.operand registry site).bind fun a => (site.read a).bind fun v =>
      (r.operand registry site).bind fun b => (site.read b).bind fun w =>
        .done (.value (op.onValues v w))
  | .union items => areasOf registry site items []
  | .call function es =>
    match registry.get? function with
    | none => .done (.error .name)
    | some f =>
      match f.checkCount es.length with
      | .error failure => .fail failure
      | .ok () =>
        (argumentsOf registry site f 0 es).bind fun
          | .error e => .done (.error e)
          | .ok args => f.call site args fun i => valueAt registry site i es

/-- The areas of several expressions behind `areas`. Each has to give a reference. -/
def areasOf (registry : Registry) (site : Site) : List Expr → List Area → Inquiry Operand
  | [], areas => .done (.reference ⟨areas⟩)
  | e :: es, areas =>
    (e.operand registry site).bind fun
      | .reference r => areasOf registry site es (areas ++ r.areas)
      | .error err => .done (.error err)
      | .value _ => .done (.error .value)

/-- The arguments of a call from the parameter at `index` on. The first error ends the call. -/
def argumentsOf (registry : Registry) (site : Site) (f : Function) (index : Nat) :
    List Expr → Inquiry (Except ErrorValue (List Argument))
  | [] => .done (.ok [])
  | e :: es =>
    (site.prepare (f.paramKind index) fun () => e.operand registry site).bind fun
      | .error err => .done (.error err)
      | .ok arg =>
        (argumentsOf registry site f (index + 1) es).bind fun args =>
          .done (args.map (arg :: ·))

/-- The value of the expression at `index`. -/
def valueAt (registry : Registry) (site : Site) : (index : Nat) → List Expr → Inquiry Value
  | _, [] => .done .blank
  | 0, e :: _ => (e.operand registry site).bind site.read
  | index + 1, _ :: es => valueAt registry site index es

end

/-- What the expression gives where a value is wanted. -/
def value (registry : Registry) (site : Site) (e : Expr) : Inquiry Value :=
  (e.operand registry site).bind site.read

variable {registry : Registry} {site : Site} {op : BinaryOp}

/-- An operator that is no range operator is applied to the values of its operands. -/
theorem operand_binary (hop : op ≠ .range) (l r : Expr) :
    (binary op l r).operand registry site =
      (l.value registry site).bind fun v => (r.value registry site).bind fun w =>
        .done (.value (op.onValues v w)) := by
  simp only [value, Inquiry.bind_assoc]
  cases op with
  | range => exact absurd rfl hop
  | _ => rfl

end Formula.Expr

end Spreadsheet
