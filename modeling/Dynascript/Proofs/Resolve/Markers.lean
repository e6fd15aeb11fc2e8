import Dynascript.Proofs.Emit.Thinning
import Dynascript.Proofs.Resolve.Steps
import Dynascript.Resolve.Stmt

/-!
# Marker statements

Local functions and `use namespace` only mark a place. `Stmt.Unmarked body rest` : `rest` is `body`
without some of its markers, at any depth of blocks and of function bodies.

Two steps of resolution run `Alike` if they file the same, leave the same registry and give related
values, or stop at the same dangling handle. Statements with and without some of their markers run
alike (`statements_unmarked`), and the resolved markers are not written out for either target, so
in the end nothing tells whether the markers were there (`markers_transparent`).
-/

namespace Dynascript

/-- The statement only marks a place. -/
def Stmt.isMarker : Stmt → Bool
  | localFunction .. | useNamespace .. => true
  | declare .. | expr .. | nonAssign .. | block .. => false

/-- The resolved statement only marks a place. -/
def TypedStmt.isMarker : TypedStmt → Bool
  | localFunction .. | useNamespace .. => true
  | declare .. | expr .. | nonAssign .. | block .. => false

/-- Some markers are left out, at any depth of blocks and of function bodies. -/
inductive Stmt.Unmarked : List Stmt → List Stmt → Prop
  | nil : Unmarked [] []
  | drop {s : Stmt} {body rest : List Stmt} :
      s.isMarker = true → Unmarked body rest → Unmarked (s :: body) rest
  | keep {s : Stmt} {body rest : List Stmt} :
      Unmarked body rest → Unmarked (s :: body) (s :: rest)
  | block {loc : Location} {inner thinner body rest : List Stmt} :
      Unmarked inner thinner → Unmarked body rest →
        Unmarked (.block loc inner :: body) (.block loc thinner :: rest)
  | function {loc : Location} {name : String} {parameters : List Parameter}
      {result : Option TypeName} {declaration : Declaration}
      {inner thinner body rest : List Stmt} :
      Unmarked inner thinner → Unmarked body rest →
        Unmarked (.localFunction loc name parameters result inner declaration :: body)
          (.localFunction loc name parameters result thinner declaration :: rest)

/-- The resolved statements are the same but for some markers. -/
abbrev TypedStmt.Unmarked : List TypedStmt → List TypedStmt → Prop := Thins (·.isMarker = true)

namespace Resolve

variable {α β γ δ : Type} {R : α → β → Prop} {S : γ → δ → Prop} {cx : Context} {r : Registry}

/-! ## Steps that run alike -/

/-- The two steps stop at the same dangling handle, or they file the same, leave the same registry
and give values that are related. -/
inductive Alike (R : α → β → Prop) (cx : Context) (r : Registry) (x : Resolve α) (y : Resolve β) :
    Prop
  | stop {d : Dangling} : x cx r = .error d → y cx r = .error d → Alike R cx r x y
  | done {a : α} {b : β} {filed : Log} {r' : Registry} :
      x cx r = .ok ⟨a, filed, r'⟩ → y cx r = .ok ⟨b, filed, r'⟩ → R a b → Alike R cx r x y

theorem alike_self {R : α → α → Prop} (hR : ∀ a, R a a) (x : Resolve α) : Alike R cx r x x := by
  cases hx : x cx r with
  | error d => exact .stop hx hx
  | ok o => exact .done hx hx (hR o.value)

theorem alike_pure {a : α} {b : β} (h : R a b) : Alike R cx r (pure a) (pure b) := .done rfl rfl h

theorem Alike.bind {x : Resolve α} {y : Resolve β} {f : α → Resolve γ} {g : β → Resolve δ}
    (hx : Alike R cx r x y) (hf : ∀ a b r', R a b → Alike S cx r' (f a) (g b)) :
    Alike S cx r (x >>= f) (y >>= g) := by
  cases hx with
  | stop hx hy => exact .stop (by rw [bind_run, hx]) (by rw [bind_run, hy])
  | @done a b filed r' hx hy hab =>
    cases hf a b r' hab with
    | @stop d hfa hgb =>
      refine .stop (d := d) ?_ ?_
      · simp only [bind_run, hx, hfa]
      · simp only [bind_run, hy, hgb]
    | @done c d more r'' hfa hgb hcd =>
      have hleft : (x >>= f) cx r = .ok ⟨c, filed ++ more, r''⟩ := by simp only [bind_run, hx, hfa]
      have hright : (y >>= g) cx r = .ok ⟨d, filed ++ more, r''⟩ := by simp only [bind_run, hy, hgb]
      exact .done hleft hright hcd

/-! ## Statements -/

/-- Related results, if there are any, and the same scopes. -/
def SameScopes (R : α → α → Prop) (a b : Option α × Scopes) : Prop :=
  Option.Rel R a.1 b.1 ∧ b.2 = a.2

/-- One statement can stand for the other in front of statements that are the same but for some
markers. -/
def Replaces (s s' : TypedStmt) : Prop :=
  ∀ {body rest : List TypedStmt}, TypedStmt.Unmarked body rest →
    TypedStmt.Unmarked (s :: body) (s' :: rest)

theorem replaces_self (s : TypedStmt) : Replaces s s := .keep

theorem sameScopes_self {R : α → α → Prop} (hR : ∀ a, R a a) (a : Option α × Scopes) :
    SameScopes R a a := by
  obtain ⟨_ | a, scopes⟩ := a
  · exact ⟨.none, rfl⟩
  · exact ⟨.some (hR a), rfl⟩

/-- A marker resolves to a marker and does nothing else. -/
theorem statement_marker {s : Stmt} (hs : s.isMarker = true) (scopes : Scopes) :
    ∃ marker : TypedStmt, marker.isMarker = true ∧
      statement scopes s = pure (some marker, scopes) := by
  cases s with
  | localFunction loc name => exact ⟨.localFunction loc name, rfl, rfl⟩
  | useNamespace loc space => exact ⟨.useNamespace loc space, rfl, rfl⟩
  | _ => cases hs

/-- A marker in front of statements is left out. -/
theorem alike_drop {s : Stmt} {body rest : List Stmt} {scopes : Scopes} (hs : s.isMarker = true)
    (ih : Alike (SameScopes TypedStmt.Unmarked) cx r (statements scopes body)
      (statements scopes rest)) :
    Alike (SameScopes TypedStmt.Unmarked) cx r (statements scopes (s :: body))
      (statements scopes rest) := by
  obtain ⟨marker, hmarker, hrun⟩ := statement_marker hs scopes
  rw [statements, hrun, pure_bind, ← bind_pure (statements scopes rest)]
  refine ih.bind fun a b r' hab => alike_pure ?_
  obtain ⟨typed, scopes'⟩ := a
  obtain ⟨typed', scopes''⟩ := b
  obtain ⟨htyped, hscopes⟩ := hab
  refine ⟨?_, hscopes⟩
  cases htyped with
  | none => exact .none
  | some h => exact .some (.drop hmarker h)

/-- Statements in front of statements, each alike. -/
theorem alike_cons {s s' : Stmt} {body rest : List Stmt} {scopes : Scopes}
    (hs : Alike (SameScopes Replaces) cx r (statement scopes s) (statement scopes s'))
    (ih : ∀ scopes r, Alike (SameScopes TypedStmt.Unmarked) cx r (statements scopes body)
      (statements scopes rest)) :
    Alike (SameScopes TypedStmt.Unmarked) cx r (statements scopes (s :: body))
      (statements scopes (s' :: rest)) := by
  rw [statements, statements]
  refine hs.bind fun a a' r' ha => ?_
  obtain ⟨typed, scopes'⟩ := a
  obtain ⟨typed', scopes''⟩ := a'
  obtain ⟨hfirst, rfl⟩ := ha
  refine (ih scopes'' r').bind fun b b' r'' hb => alike_pure ?_
  obtain ⟨others, last⟩ := b
  obtain ⟨others', last'⟩ := b'
  obtain ⟨hothers, hlast⟩ := hb
  refine ⟨?_, hlast⟩
  cases hfirst with
  | none => exact .none
  | some hfirst =>
    cases hothers with
    | none => exact .none
    | some hothers => exact .some (hfirst hothers)

/-- Blocks of statements that are alike. -/
theorem alike_block {loc : Location} {inner thinner : List Stmt} {scopes : Scopes}
    (ih : Alike (SameScopes TypedStmt.Unmarked) cx r (statements scopes.push inner)
      (statements scopes.push thinner)) :
    Alike (SameScopes Replaces) cx r (statement scopes (.block loc inner))
      (statement scopes (.block loc thinner)) := by
  rw [statement, statement]
  refine ih.bind fun a b r' hab => alike_pure ?_
  obtain ⟨typed, inside⟩ := a
  obtain ⟨typed', inside'⟩ := b
  obtain ⟨htyped, rfl⟩ := hab
  refine ⟨?_, rfl⟩
  cases htyped with
  | none => exact .none
  | some h => exact .some (.inside h)

/-- Statements run alike with and without some of their markers. -/
theorem statements_unmarked {body rest : List Stmt} (h : Stmt.Unmarked body rest)
    (scopes : Scopes) (r : Registry) :
    Alike (SameScopes TypedStmt.Unmarked) cx r (statements scopes body)
      (statements scopes rest) := by
  induction h generalizing scopes r with
  | nil => exact alike_pure ⟨.some .nil, rfl⟩
  | drop hs _ ih => exact alike_drop hs (ih scopes r)
  | keep _ ih => exact alike_cons (alike_self (sameScopes_self replaces_self) _) ih
  | block _ _ ihInner ih => exact alike_cons (alike_block (ihInner scopes.push r)) ih
  | function _ _ _ ih =>
    -- Nothing of the function but its name goes into the resolved marker.
    exact alike_cons (alike_self (sameScopes_self replaces_self) _) ih

end Resolve

theorem Native.stmtCode_marker {r : Registry} {s : TypedStmt} (hs : s.isMarker = true) :
    stmtCode r s = .nothing := by
  cases s with
  | localFunction | useNamespace => rfl
  | _ => cases hs

theorem Script.stmtText_marker {r : Registry} {s : TypedStmt} (hs : s.isMarker = true)
    (depth : Nat) : stmtText r depth s = .nothing := by
  cases s with
  | localFunction | useNamespace => rfl
  | _ => cases hs

namespace Resolve

/-- Leaving out markers changes nothing : not whether the statements resolve, nor what is filed, nor
the registry and the scopes after them, nor what is written of the resolved statements for either
target, with its locations, nor why the writing stops. -/
theorem markers_transparent {body rest : List Stmt} (h : Stmt.Unmarked body rest)
    (scopes : Scopes) (cx : Context) (r : Registry) :
    (∀ d, statements scopes rest cx r = .error d ↔ statements scopes body cx r = .error d) ∧
    ∀ o, statements scopes body cx r = .ok o → ∃ o', statements scopes rest cx r = .ok o' ∧
      o'.value.1.isSome = o.value.1.isSome ∧ o'.filed = o.filed ∧ o'.registry = o.registry ∧
      o'.value.2 = o.value.2 ∧
      ∀ typed typed', o.value.1 = some typed → o'.value.1 = some typed' → ∀ r',
        Native.unitCode r' typed' = Native.unitCode r' typed ∧
          Script.unitText r' 0 typed' = Script.unitText r' 0 typed := by
  have halike : Alike (SameScopes TypedStmt.Unmarked) cx r (statements scopes body)
      (statements scopes rest) := statements_unmarked h scopes r
  cases halike with
  | stop hbody hrest => exact ⟨by simp [hbody, hrest], by simp [hbody]⟩
  | @done a b filed r' hbody hrest hab =>
    refine ⟨by simp [hbody, hrest], fun o ho => ⟨_, hrest, ?_⟩⟩
    obtain rfl := Except.ok.inj (hbody.symm.trans ho)
    obtain ⟨typed, scopes'⟩ := a
    obtain ⟨typed', scopes''⟩ := b
    obtain ⟨htyped, hscopes⟩ := hab
    cases htyped with
    | none => exact ⟨rfl, rfl, rfl, hscopes, by simp⟩
    | some hthins =>
      refine ⟨rfl, rfl, rfl, hscopes, fun typed typed' ht ht' r' => ?_⟩
      obtain rfl := Option.some.inj ht
      obtain rfl := Option.some.inj ht'
      exact ⟨Native.unitCode_thins (fun _ => Native.stmtCode_marker) hthins,
        Script.unitText_thins (fun _ => Script.stmtText_marker) hthins 0⟩

/-- A function whose body names what is not there, in a block after another marker : nothing of it
is seen once both markers are left out. -/
theorem function_in_block_left_out :
    let r := Registry.bootstrap "app"
    let cx : Context := { settings := {} }
    let declaration : Stmt := .declare .origin ⟨"x", none, none, .origin⟩
    let function : Stmt := .localFunction .origin "f" [] none
      [.expr .origin (.name .origin "missing")] ⟨"f", none, none, .origin⟩
    let body := [.useNamespace .origin "app", .block .origin [function, declaration]]
    let rest := [.block .origin [declaration]]
    let typed : List TypedStmt := [.useNamespace .origin "app",
      .block .origin [.localFunction .origin "f", .declare .origin "x" .dynamic none]]
    Stmt.Unmarked body rest ∧
      statements .fresh body cx r = .ok ⟨(some typed, .fresh), [], r⟩ ∧
      ∃ o', statements .fresh rest cx r = .ok o' ∧ o'.value.1.isSome = true ∧ o'.filed = [] ∧
        o'.registry = r ∧ o'.value.2 = .fresh ∧
        ∀ typed', o'.value.1 = some typed' → ∀ r',
          Native.unitCode r' typed' = Native.unitCode r' typed ∧
            Script.unitText r' 0 typed' = Script.unitText r' 0 typed := by
  intro r cx declaration function body rest typed
  have hunmarked : Stmt.Unmarked body rest := .drop rfl (.block (.drop rfl (.keep .nil)) .nil)
  have hrun (r : Registry) :
      statements .fresh body cx r = .ok ⟨(some typed, .fresh), [], r⟩ := by
    simp only [body, statements, statement, pure_bind]
    rfl
  obtain ⟨o', ho', hsome, hfiled, hregistry, hscopes, hwritten⟩ :=
    (markers_transparent hunmarked .fresh cx r).2 _ (hrun r)
  exact ⟨hunmarked, hrun r, o', ho', hsome, hfiled, hregistry, hscopes, fun typed' =>
    hwritten typed typed' rfl⟩

end Resolve

end Dynascript
