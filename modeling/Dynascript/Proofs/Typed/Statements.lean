import Dynascript.Proofs.Resolve.Units
import Dynascript.Proofs.Typed.Renaming

/-!
# Trees in resolved statements

`TypedStmt.treesOf` lists the trees that stand in the statements of a body, at any depth of
blocks. In a body that resolution has made, each of them is well typed in scopes of its own
(`BodyTyped.tree`), and the registry has the types it names (`AllWithin.tree`).
-/

namespace Dynascript

namespace TypedStmt

mutual

/-- The trees that stand in a statement. -/
def trees : TypedStmt → List TypedExpr
  | declare _ _ _ initializer => initializer.toList
  | expr _ e | nonAssign _ e => [e]
  | block _ body => treesOf body
  | localFunction .. | useNamespace .. => []

/-- The trees that stand in statements. -/
def treesOf : List TypedStmt → List TypedExpr
  | [] => []
  | s :: rest => s.trees ++ treesOf rest

end

mutual

theorem Within.tree {r : Registry} :
    ∀ {s : TypedStmt}, s.Within r → ∀ e ∈ s.trees, e.Within r
  | declare .., h, e, he => h.2 e (by simpa [trees] using he)
  | expr .., h, e, he | nonAssign .., h, e, he => by
    obtain rfl := List.mem_singleton.1 he
    exact h
  | block .., h, e, he => AllWithin.tree h e he
  | localFunction .., _, _, he | useNamespace .., _, _, he => nomatch he

theorem AllWithin.tree {r : Registry} :
    ∀ {body : List TypedStmt}, AllWithin r body → ∀ e ∈ treesOf body, e.Within r
  | [], _, _, he => nomatch he
  | _ :: _, h, e, he => by
    rcases List.mem_append.1 he with he | he
    · exact Within.tree h.1 e he
    · exact AllWithin.tree h.2 e he

end

end TypedStmt

namespace Resolve

variable {r : Registry} {settings : Settings}

mutual

theorem StmtTyped.tree :
    ∀ {s : TypedStmt} {scopes : Scopes}, StmtTyped settings r scopes s →
      ∀ e ∈ s.trees, ∃ scopes', Typed ⟨settings, scopes'⟩ r e
  | .declare .., scopes, h, e, he => ⟨scopes, h e (by simpa [TypedStmt.trees] using he)⟩
  | .expr .., scopes, h, e, he | .nonAssign .., scopes, h, e, he => by
    obtain rfl := List.mem_singleton.1 he
    exact ⟨scopes, h⟩
  | .block .., _, h, e, he => BodyTyped.tree h e he
  | .localFunction .., _, _, _, he | .useNamespace .., _, _, _, he => nomatch he

/-- Each tree of a body is well typed, in the scopes that it stands in. -/
theorem BodyTyped.tree :
    ∀ {body : List TypedStmt} {scopes : Scopes}, BodyTyped settings r scopes body →
      ∀ e ∈ TypedStmt.treesOf body, ∃ scopes', Typed ⟨settings, scopes'⟩ r e
  | [], _, _, _, he => nomatch he
  | _ :: _, _, h, e, he => by
    rcases List.mem_append.1 he with he | he
    · exact StmtTyped.tree h.1 e he
    · exact BodyTyped.tree h.2 e he

end

end Resolve

end Dynascript
