import Dynascript.Resolve.Creation

/-!
# Resolving expressions

`resolve` turns an expression into a typed one. The parts of a node are resolved first,
each even if an earlier one failed, except that an assignment whose target fails leaves
its value alone. XML queries are never resolved, and say nothing about it.
-/

namespace Dynascript.Resolve

mutual

/-- Resolve an expression whose value goes to `site`. -/
def resolve (site : Site) (e : Expr) : Resolve (Option TypedExpr) :=
  match e with
  | .literal loc value => return some (ofLiteral loc value)
  | .name loc name => ofName loc name
  | .member loc target name => do
    match ← pathType (.member loc target name) with
    | some type => return some (.typeRef ⟨type, .type, loc⟩)
    | none => andThen (← resolve .unknown target) fun target => memberOf loc target name
  | .element loc target args => do
    let target ← resolve .unknown target
    let args ← resolveAll args
    both target args fun target args => elementOf loc target args
  | .call loc callee args => do
    match callee with
    | .member place target name =>
      match ← pathType (.member place target name) with
      | none =>
        let receiver ← resolve .unknown target
        let args ← resolveAll args
        both receiver args fun receiver args => methodCall loc receiver name args
      | some _ =>
        andThen (← resolveAll args) fun _ =>
          fail .notInvocable loc [(Expr.member place target name).display]
    | callee =>
      let resolved ← resolve .unknown callee
      let args ← resolveAll args
      both resolved args fun resolved args => invoke loc callee resolved args
  | .assign loc target value => do
    andThen (← resolve .unknown target) fun place => do
      if place.role = .place then
        andThen (← resolve (.ofAssigned place.type) value) fun value =>
          return some (.assign (.value place.type loc) place value)
      else fail .notAssignable target.loc []
  | .typeRef _ type => ofTypeName type
  | .object loc fields => do
    let type ← objectType site
    andThen (← resolveFields fields) fun properties => objectOf loc type fields properties
  | .array loc elements vector => do
    let type ← arrayType vector site
    andThen (← resolveAll elements) fun elements => arrayOf loc type elements
  | .delete loc operand => do
    if ← isScript then
      andThen (← resolve .unknown operand) fun operand =>
        return some (.scriptDelete (.value .dynamic loc) operand)
    else
      match operand with
      | .element _ target [key] =>
        let target ← resolve .unknown target
        let key ← resolve .unknown key
        both target key fun target key => deleteOf loc target key true
      | .element .. => fail .deleteIndexCount loc []
      | .member place target name =>
        andThen (← resolve .unknown target) fun target =>
          deleteOf loc target (stringConstant place name) false
      | _ => fail .deleteOperand operand.loc []
  | .new loc operand => do
    if ← isScript then
      let operand ← match operand with
        | .call place callee args => do
          let callee ← resolve .unknown callee
          let args ← resolveAll args
          both callee args fun callee args =>
            return some (.dynamicInvoke (.value .dynamic place) callee args)
        | operand => resolve .unknown operand
      andThen operand fun operand => return some (.scriptNew (.value .dynamic loc) operand)
    else
      match operand with
      | .array place elements vector =>
        let type ← arrayType vector site
        andThen (← resolveAll elements) fun elements => arrayOf place type elements
      | .call _ callee args =>
        match ← exprType callee with
        | some type => andThen (← resolveAll args) fun args => construct loc type args
        | none =>
          let resolved ← resolve .unknown callee
          let args ← resolveAll args
          both resolved args fun resolved args => newOf loc callee resolved args
      | .element _ target args =>
        if ← checkNewArray loc target args then
          let element ← newElementType target
          let dimensions ← resolveAll args
          both element dimensions fun element dimensions => newArray loc element dimensions
        else return none
      | operand =>
        andThen (← resolve .unknown operand) fun resolved => newOf loc operand resolved []
  | .typeof loc operand => do
    if ← isExtended then fail .typeofInExtended loc []
    else andThen (← resolve .unknown operand) fun operand => typeofOf loc operand
  | .isIn loc key container => do
    let key ← resolve .unknown key
    let container ← resolve .unknown container
    both key container fun key container => inOf loc key container
  | .undefined loc => return some (← undefinedOf loc)
  | .regex loc value => regexOf loc value
  | .xml loc value => xmlOf loc value
  | .xmlQuery .. => return none
termination_by structural e

/-- Resolve a list of expressions, each even if an earlier one fails. -/
def resolveAll (es : List Expr) : Resolve (Option (List TypedExpr)) :=
  match es with
  | [] => return some []
  | e :: es => do
    let typed ← resolve .unknown e
    let rest ← resolveAll es
    both typed rest fun typed rest => return some (typed :: rest)
termination_by structural es

/-- Resolve the values of an object initializer, each even if an earlier one fails. -/
def resolveFields (fields : List Field) : Resolve (Option (List Property)) :=
  match fields with
  | [] => return some []
  | .mk name _ value :: fields => do
    let typed ← resolve .unknown value
    let rest ← resolveFields fields
    both typed rest fun typed rest => return some (.mk name typed :: rest)
termination_by structural fields

end

/-- Resolve an object initializer for a type that is already known. -/
def resolveObjectAs (loc : Location) (type : TypeId) (fields : List Field) :
    Resolve (Option TypedExpr) := do
  andThen (← resolveFields fields) fun properties => objectOf loc type fields properties

/-- Resolve an array initializer for a type that is already known. -/
def resolveArrayAs (loc : Location) (type : TypeId) (elements : List Expr) :
    Resolve (Option TypedExpr) := do
  andThen (← resolveAll elements) fun elements => arrayOf loc type elements

end Dynascript.Resolve
