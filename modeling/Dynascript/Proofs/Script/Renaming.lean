import Dynascript.Proofs.Typed.Renaming
import Dynascript.Script.Text

/-!
# Script text and the numbers of types

Script text names a type by its written name and never by its number. So a tree whose types are
renamed has the same text, in a registry that names these types alike (`text_rename`), and so have
statements (`unitText_rename`).
-/

namespace Dynascript

mutual

theorem TypedExpr.isPure_rename (f : TypeId → TypeId) :
    ∀ e : TypedExpr, (e.rename f).isPure = e.isPure
  | .instanceField _ e _ _ | .cast _ e | .scriptTypeof _ e => by
    rw [rename, isPure, isPure, isPure_rename f e]
  | .objectLiteral _ ps => by rw [rename, isPure, isPure, arePure_rename f ps]
  | .arrayLiteral _ es => by rw [rename, isPure, isPure, areAllPure_rename f es]
  | .constant .. | .localVar .. | .typeRef _ | .staticField .. | .scriptUndefined _
  | .dynamicMember .. | .element .. | .staticCall .. | .instanceCall .. | .dynamicCall ..
  | .dynamicInvoke .. | .new .. | .dynamicNew .. | .newWith .. | .newArray .. | .arrayOf ..
  | .assign .. | .scriptDelete .. | .scriptNew .. | .scriptIn .. => by
    rw [rename, isPure, isPure]

theorem TypedExpr.areAllPure_rename (f : TypeId → TypeId) :
    ∀ es : List TypedExpr, areAllPure (renameTrees f es) = areAllPure es
  | [] => rfl
  | e :: es => by
    rw [renameTrees, areAllPure, areAllPure, isPure_rename f e, areAllPure_rename f es]

theorem TypedExpr.arePure_rename (f : TypeId → TypeId) :
    ∀ ps : List Property, arePure (renameProperties f ps) = arePure ps
  | [] => rfl
  | .mk _ e :: ps => by
    rw [renameProperties, arePure, arePure, isPure_rename f e, arePure_rename f ps]

end

namespace Script

variable {r r' : Registry} {f : TypeId → TypeId}

/-! ## Expressions -/

theorem listRest_rename {loc : Location} {es : List TypedExpr}
    (h : ∀ e ∈ es, text r' (e.rename f) = text r e) :
    listRest r' loc (renameTrees f es) = listRest r loc es := by
  induction es with
  | nil => rfl
  | cons e es ih =>
    obtain ⟨he, hes⟩ := List.forall_mem_cons.1 h
    rw [renameTrees, listRest, listRest, he, ih hes]

theorem list_rename {loc : Location} {es : List TypedExpr}
    (h : ∀ e ∈ es, text r' (e.rename f) = text r e) :
    list r' loc (renameTrees f es) = list r loc es := by
  cases es with
  | nil => rfl
  | cons e es =>
    obtain ⟨he, hes⟩ := List.forall_mem_cons.1 h
    rw [renameTrees, list, list, he, listRest_rename hes]

theorem propertyRest_rename {loc : Location} {ps : List Property}
    (h : ∀ p ∈ ps, text r' (p.value.rename f) = text r p.value) :
    propertyRest r' loc (renameProperties f ps) = propertyRest r loc ps := by
  induction ps with
  | nil => rfl
  | cons p ps ih =>
    obtain ⟨name, value⟩ := p
    obtain ⟨hvalue, hps⟩ := List.forall_mem_cons.1 h
    rw [Property.value] at hvalue
    rw [renameProperties, propertyRest, propertyRest, hvalue, ih hps]

theorem propertyList_rename {loc : Location} {ps : List Property}
    (h : ∀ p ∈ ps, text r' (p.value.rename f) = text r p.value) :
    propertyList r' loc (renameProperties f ps) = propertyList r loc ps := by
  cases ps with
  | nil => rfl
  | cons p ps =>
    obtain ⟨name, value⟩ := p
    obtain ⟨hvalue, hps⟩ := List.forall_mem_cons.1 h
    rw [Property.value] at hvalue
    rw [renameProperties, propertyList, propertyList, hvalue, propertyRest_rename hps]

theorem text_rename (hnames : ∀ t, r.Has t → r'.nameOf (f t) = r.nameOf t) {e : TypedExpr}
    (h : e.Within r) : text r' (e.rename f) = text r e := by
  induction h with
  | @node e here below ih =>
    obtain ⟨htype, hnamed⟩ := List.forall_mem_cons.1 here
    have hname := hnames _ htype
    cases e with
    | constant | localVar | scriptUndefined => rfl
    | typeRef i => exact congrArg (Emission.asking · fun type => pieces i.loc [type]) hname
    | staticField i owner name =>
      have howner := hnames owner (hnamed owner List.mem_cons_self)
      rw [TypedExpr.rename, text, text, howner]
      rfl
    | instanceField i e | dynamicMember i e | scriptDelete i e | scriptNew i e
    | scriptTypeof i e =>
      rw [TypedExpr.rename, text, text, ih e List.mem_cons_self]
      rfl
    | element i e es | instanceCall i e _ _ es | dynamicCall i e _ es | dynamicInvoke i e es
    | dynamicNew i e es =>
      obtain ⟨he, hes⟩ := List.forall_mem_cons.1 ih
      rw [TypedExpr.rename, text, text, he, list_rename hes]
      rfl
    | staticCall i owner method es =>
      have howner := hnames owner (hnamed owner List.mem_cons_self)
      have hargs : ∀ e ∈ es, text r' (e.rename f) = text r e := ih
      rw [TypedExpr.rename, text, text, howner, list_rename hargs]
      rfl
    | new i es =>
      have hnew : r'.nameOf (i.rename f).type = r.nameOf i.type := hname
      have hargs : ∀ e ∈ es, text r' (e.rename f) = text r e := ih
      rw [TypedExpr.rename, text, text, hnew, list_rename hargs]
      rfl
    | assign i e e' | scriptIn i e e' =>
      obtain ⟨he, he'⟩ := List.forall_mem_cons.1 ih
      rw [TypedExpr.rename, text, text, he, he' e' List.mem_cons_self]
      rfl
    | objectLiteral i ps =>
      have hvalues : ∀ p ∈ ps, text r' (p.value.rename f) = text r p.value := fun p hp =>
        ih _ (List.mem_map_of_mem hp)
      rw [TypedExpr.rename, text, text, propertyList_rename hvalues]
      rfl
    | arrayLiteral i es =>
      have helements : ∀ e ∈ es, text r' (e.rename f) = text r e := ih
      rw [TypedExpr.rename, text, text, list_rename helements]
      rfl
    | cast | newWith | newArray | arrayOf => rfl

/-! ## Statements -/

mutual

theorem stmtText_rename (hnames : ∀ t, r.Has t → r'.nameOf (f t) = r.nameOf t) :
    ∀ {s : TypedStmt} {depth : Nat}, s.Within r →
      stmtText r' depth (s.rename f) = stmtText r depth s
  | .declare _ _ _ none, _, _ => rfl
  | .declare _ _ _ (some e), _, h => by
    rw [TypedStmt.rename, Option.map_some, stmtText, stmtText, text_rename hnames (h.2 e rfl)]
  | .expr _ e, _, h => by rw [TypedStmt.rename, stmtText, stmtText, text_rename hnames h]
  | .nonAssign _ e, _, h => by
    rw [TypedStmt.rename, stmtText, stmtText, text_rename hnames h, e.isPure_rename]
  | .block _ body, _, h => by
    rw [TypedStmt.rename, stmtText, stmtText, unitText_rename hnames h]
  | .localFunction .., _, _ | .useNamespace .., _, _ => rfl

/-- Statements with renamed types have the same text where the types have the same names. -/
theorem unitText_rename (hnames : ∀ t, r.Has t → r'.nameOf (f t) = r.nameOf t) :
    ∀ {body : List TypedStmt} {depth : Nat}, TypedStmt.AllWithin r body →
      unitText r' depth (TypedStmt.renameAll f body) = unitText r depth body
  | [], _, _ => rfl
  | _ :: _, _, h => by
    rw [TypedStmt.renameAll, unitText, unitText, stmtText_rename hnames h.1,
      unitText_rename hnames h.2]

end

end Script

end Dynascript
