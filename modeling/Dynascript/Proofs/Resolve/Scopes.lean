import Dynascript.Proofs.Resolve.Steps
import Dynascript.Resolve.Stmt

/-!
# The scopes after statements

An expression is given scopes and returns none, so only statements can change them. Whatever becomes
of a statement, the scopes after it are those before it, with one binding more in the innermost one
if the statement is a declaration (`statement_extends`). A block gives back the scopes it was
entered with, also if it fails. So the scopes after a list have one binding for each declaration
that stands in the list itself, the last one first (`statements_extend`).
-/

namespace Dynascript

/-- The name that a statement declares in the scope that it stands in. -/
def Stmt.declared? : Stmt → Option String
  | declare _ d => some d.name
  | expr .. | nonAssign .. | block .. | localFunction .. | useNamespace .. => none

namespace Scopes

/-- The scopes with more bindings in the innermost one, where they hide older ones. -/
def extend (s : Scopes) (bindings : Scope) : Scopes := { s with inner := bindings ++ s.inner }

theorem extend_nil (s : Scopes) : s.extend [] = s := rfl

theorem extend_extend (s : Scopes) (bindings newer : Scope) :
    (s.extend bindings).extend newer = s.extend (newer ++ bindings) := by
  simp [extend]

theorem pop_extend_push (s : Scopes) (bindings : Scope) : (s.push.extend bindings).pop = s := rfl

theorem lookup_extend (s : Scopes) (bindings : Scope) (x : String) :
    (s.extend bindings).lookup x = (bindings.lookup x).or (s.lookup x) := by
  simp only [lookup, extend, List.findSome?_cons, List.lookup_append]
  cases bindings.lookup x <;> rfl

theorem lookup_extend_of_notMem {s : Scopes} {bindings : Scope} {x : String}
    (h : x ∉ bindings.map Prod.fst) : (s.extend bindings).lookup x = s.lookup x := by
  have hnone : bindings.lookup x = none := by
    rw [List.lookup_eq_none_iff]
    rintro ⟨name, type⟩ hb
    rw [bne_iff_ne]
    rintro rfl
    exact h (List.mem_map_of_mem hb)
  rw [lookup_extend, hnone, Option.none_or]

end Scopes

namespace Resolve

/-- What a list leaves, by its first statement and the ones after it. -/
theorem statements_cons {cx : Context} {scopes : Scopes} {s : Stmt} {rest : List Stmt}
    {r : Registry} {o : Outcome (Option TypedStmt × Scopes)}
    {o' : Outcome (Option (List TypedStmt) × Scopes)} (hs : statement scopes s cx r = .ok o)
    (hrest : statements o.value.2 rest cx o.registry = .ok o') :
    statements scopes (s :: rest) cx r =
      .ok ⟨(o.value.1.bind fun typed => o'.value.1.map (typed :: ·), o'.value.2),
        o.filed ++ o'.filed, o'.registry⟩ := by
  obtain ⟨⟨typed, scopes'⟩, filed, r'⟩ := o
  obtain ⟨⟨typedRest, scopes''⟩, filed', r''⟩ := o'
  rw [statements, bind_run, hs]
  simp only [bind_run, hrest, pure, Resolve.pure, List.append_nil]
  cases typed <;> cases typedRest <;> rfl

mutual

/-- A statement adds a binding for the name that it declares, and nothing else. -/
theorem statement_extends : ∀ (s : Stmt) (scopes : Scopes) (cx : Context) (r : Registry),
    Always (statement scopes s) cx r fun o => ∃ bindings : Scope,
      bindings.map Prod.fst = s.declared?.toList ∧ o.value.2 = scopes.extend bindings
  | .declare loc d, scopes, cx, r => by
    rw [statement]
    exact always_bind fun o _ => always_pure ⟨[(d.name, o.value.2)], rfl, rfl⟩
  | .expr loc e, scopes, cx, r | .nonAssign loc e, scopes, cx, r => by
    rw [statement]
    exact always_bind fun o _ => always_pure ⟨[], rfl, rfl⟩
  | .block loc body, scopes, cx, r => by
    rw [statement]
    refine always_bind ((statements_extend body scopes.push cx r).mono fun o ho => always_pure ?_)
    obtain ⟨bindings, -, hscopes⟩ := ho
    exact ⟨[], rfl, by rw [hscopes]; exact scopes.pop_extend_push bindings⟩
  | .localFunction .., scopes, cx, r | .useNamespace .., scopes, cx, r =>
    always_pure ⟨[], rfl, rfl⟩

/-- Statements add a binding for each declaration in the list, the last one first. -/
theorem statements_extend : ∀ (body : List Stmt) (scopes : Scopes) (cx : Context) (r : Registry),
    Always (statements scopes body) cx r fun o => ∃ bindings : Scope,
      bindings.map Prod.fst = (body.filterMap Stmt.declared?).reverse ∧
        o.value.2 = scopes.extend bindings
  | [], scopes, cx, r => always_pure ⟨[], rfl, rfl⟩
  | s :: rest, scopes, cx, r => by
    rw [statements]
    refine always_bind ((statement_extends s scopes cx r).mono fun o ho => ?_)
    refine always_bind ((statements_extend rest o.value.2 cx o.registry).mono fun o' ho' => ?_)
    obtain ⟨first, hfirst, hscopes⟩ := ho
    obtain ⟨others, hothers, hscopes'⟩ := ho'
    refine always_pure ⟨others ++ first, ?_, ?_⟩
    · rw [List.map_append, hfirst, hothers]
      cases hs : s.declared? <;> simp [hs]
    · rw [hscopes', hscopes, Scopes.extend_extend]

end

end Resolve

end Dynascript
