import Dynascript.Proofs.Native.Locals
import Mathlib.Logic.Function.Basic

/-!
# Scoping in native code

Native code has no scopes : a name stands for whatever was declared last. `Agrees` says that
a scan of the code which remembers the last declaration of each name finds every variable
with the type that resolution gave it. `scopes_kept_iff` says when it does : no initializer
uses the variable that it initializes under another type, and no variable is used after a
block that has declared its name with another type. `initializer_sees_own_declaration` is a
unit where it does not.
-/

namespace Dynascript.Native

open Resolve

variable {memory : String → Option TypeId} {x : String} {t : TypeId} {a b events : List LocalEvent}

/-! ## Scanning -/

/-- What is remembered after events : the last declaration of each name. -/
def remember (memory : String → Option TypeId) : List LocalEvent → String → Option TypeId
  | [] => memory
  | .declare name type :: rest => remember (Function.update memory name (some type)) rest
  | .use .. :: rest => remember memory rest

/-- Each use finds the type that resolution gave the variable. -/
def Agrees (memory : String → Option TypeId) : List LocalEvent → Prop
  | [] => True
  | .declare name type :: rest => Agrees (Function.update memory name (some type)) rest
  | .use name type :: rest => memory name = some type ∧ Agrees memory rest

/-- The type of the last declaration of `x`. -/
def lastDeclared (x : String) : List LocalEvent → Option TypeId
  | [] => none
  | .declare name type :: rest =>
    (lastDeclared x rest).or (if name = x then some type else none)
  | .use .. :: rest => lastDeclared x rest

/-- The types under which `x` is used before it is declared. -/
def exposed (x : String) : List LocalEvent → List TypeId
  | [] => []
  | .declare name _ :: rest => if name = x then [] else exposed x rest
  | .use name type :: rest => if name = x then type :: exposed x rest else exposed x rest

theorem agrees_append :
    Agrees memory (a ++ b) ↔ Agrees memory a ∧ Agrees (remember memory a) b := by
  induction a generalizing memory with
  | nil => simp [Agrees, remember]
  | cons event rest ih =>
    cases event with
    | declare name type => exact ih
    | use name type =>
      rw [List.cons_append, Agrees, Agrees, ih, and_assoc]
      rfl

theorem remember_apply (memory : String → Option TypeId) (x : String) (events : List LocalEvent) :
    remember memory events x = (lastDeclared x events).or (memory x) := by
  induction events generalizing memory with
  | nil => rfl
  | cons event rest ih =>
    cases event with
    | use name type => exact ih memory
    | declare name type =>
      have hrest : remember memory (.declare name type :: rest) x =
          remember (Function.update memory name (some type)) rest x := rfl
      rw [hrest, ih, lastDeclared, Option.or_assoc]
      by_cases hx : name = x
      · simp [hx]
      · simp [hx, Function.update_of_ne (Ne.symm hx)]

theorem lastDeclared_append :
    lastDeclared x (a ++ b) = (lastDeclared x b).or (lastDeclared x a) := by
  induction a with
  | nil => simp [lastDeclared]
  | cons event rest ih =>
    cases event with
    | declare name type => rw [List.cons_append, lastDeclared, ih, lastDeclared, Option.or_assoc]
    | use name type => exact ih

theorem mem_exposed_append :
    t ∈ exposed x (a ++ b) ↔ t ∈ exposed x a ∨ lastDeclared x a = none ∧ t ∈ exposed x b := by
  induction a with
  | nil => simp [exposed, lastDeclared]
  | cons event rest ih =>
    cases event with
    | declare name type =>
      by_cases hx : name = x
      · simp [exposed, lastDeclared, hx]
      · simpa [exposed, lastDeclared, hx] using ih
    | use name type =>
      by_cases hx : name = x
      · simp [exposed, lastDeclared, hx, ih, or_assoc]
      · simpa [exposed, lastDeclared, hx] using ih

/-- What is used before it is declared is found in the memory. -/
theorem Agrees.exposed (h : Agrees memory events) (ht : t ∈ exposed x events) :
    memory x = some t := by
  induction events generalizing memory with
  | nil => cases ht
  | cons event rest ih =>
    cases event with
    | declare name type =>
      by_cases hx : name = x
      · simp [Native.exposed, hx] at ht
      · rw [Native.exposed, if_neg hx] at ht
        have hfound := ih h ht
        rwa [Function.update_of_ne (Ne.symm hx)] at hfound
    | use name type =>
      by_cases hx : name = x
      · rw [Native.exposed, if_pos hx, List.mem_cons] at ht
        rcases ht with rfl | ht
        · exact hx ▸ h.1
        · exact ih h.2 ht
      · rw [Native.exposed, if_neg hx] at ht
        exact ih h.2 ht

/-! ## The condition -/

mutual

/-- No initializer uses the variable that it initializes under another type, and no variable
is used after a block in the statement that has declared its name with another type. -/
def StmtKeeps : TypedStmt → Prop
  | .declare _ name type (some value) => ∀ t ∈ exposed name (uses value), t = type
  | .block _ body => BodyKeeps body
  | _ => True

def BodyKeeps : List TypedStmt → Prop
  | [] => True
  | s :: rest =>
    StmtKeeps s ∧
      (∀ loc body, s = .block loc body →
        ∀ x type, lastDeclared x (bodyEvents body) = some type →
          ∀ t ∈ exposed x (bodyEvents rest), t = type) ∧
      BodyKeeps rest

end

/-! ## Uses in trees -/

/-- The events are uses, each with what `p` asks of its name and type. -/
def UsesOnly (p : String → TypeId → Prop) (events : List LocalEvent) : Prop :=
  ∀ event ∈ events, ∃ name type, event = .use name type ∧ p name type

theorem usesOnly_flatMap {α : Type} {p : String → TypeId → Prop} {f : α → List LocalEvent}
    {as : List α} (h : ∀ a ∈ as, UsesOnly p (f a)) : UsesOnly p (as.flatMap f) := by
  intro event hevent
  obtain ⟨c, hc, hevent⟩ := List.mem_flatMap.1 hevent
  exact h c hc event hevent

theorem usesOnly_append {p : String → TypeId → Prop} (ha : UsesOnly p a) (hb : UsesOnly p b) :
    UsesOnly p (a ++ b) := by
  intro event hevent
  exact (List.mem_append.1 hevent).elim (ha event) (hb event)

theorem lastDeclared_of_usesOnly {p : String → TypeId → Prop} (h : UsesOnly p events) :
    lastDeclared x events = none := by
  induction events with
  | nil => rfl
  | cons event rest ih =>
    obtain ⟨hevent, hrest⟩ := List.forall_mem_cons.1 h
    obtain ⟨name, type, rfl, -⟩ := hevent
    exact ih hrest

theorem mem_exposed_iff {p : String → TypeId → Prop} (h : UsesOnly p events) :
    t ∈ exposed x events ↔ .use x t ∈ events := by
  induction events with
  | nil => simp [exposed]
  | cons event rest ih =>
    obtain ⟨hevent, hrest⟩ := List.forall_mem_cons.1 h
    obtain ⟨name, type, rfl, -⟩ := hevent
    by_cases hx : name = x
    · simp [exposed, hx, ih hrest]
    · simp [exposed, hx, ih hrest, Ne.symm hx]

theorem UsesOnly.of_exposed {p : String → TypeId → Prop} (h : UsesOnly p events)
    (ht : t ∈ exposed x events) : p x t := by
  obtain ⟨name, type, heq, hp⟩ := h _ ((mem_exposed_iff h).1 ht)
  cases heq
  exact hp

/-- Without declarations, a memory that has what is used is enough. -/
theorem UsesOnly.agrees {p : String → TypeId → Prop} (h : UsesOnly p events)
    (hmem : ∀ x, ∀ t ∈ exposed x events, memory x = some t) : Agrees memory events := by
  have hfound : ∀ x t, .use x t ∈ events → memory x = some t := by
    intro x t ht
    exact hmem x t ((mem_exposed_iff h).2 ht)
  clear hmem
  induction events with
  | nil => trivial
  | cons event rest ih =>
    obtain ⟨hevent, hrest⟩ := List.forall_mem_cons.1 h
    obtain ⟨name, type, rfl, -⟩ := hevent
    exact ⟨hfound name type List.mem_cons_self,
      ih hrest fun x t ht => hfound x t (List.mem_cons_of_mem _ ht)⟩

/-- Each use in a well typed tree is of the variable that its scopes give. -/
theorem uses_typed {cx : Context} {r : Registry} {e : TypedExpr} (h : Typed cx r e) :
    UsesOnly (fun name type => cx.scopes.lookup name = some type) (uses e) := by
  have own {e : TypedExpr} (h : Typed cx r e) :
      UsesOnly (fun name type => cx.scopes.lookup name = some type) (ownUse e) := by
    cases e with
    | localVar i name =>
      intro event hevent
      exact ⟨name, i.type, List.mem_singleton.1 hevent, h.here.2⟩
    | _ => exact nofun
  by_cases hassign : ∃ i target value, e = .assign i target value
  · obtain ⟨i, target, value, rfl⟩ := hassign
    have htarget : Typed cx r target := h.child (by simp [TypedExpr.children])
    have hvalue : Typed cx r value := h.child (by simp [TypedExpr.children])
    rw [uses_assign]
    refine usesOnly_append (usesOnly_append ?_ (uses_typed hvalue)) (own htarget)
    exact usesOnly_flatMap fun c hc => uses_typed (htarget.child hc)
  · rw [uses_eq (fun i target value he => hassign ⟨i, target, value, he⟩)]
    exact usesOnly_append (usesOnly_flatMap fun c hc => uses_typed (h.child hc)) (own h)
termination_by sizeOf e
decreasing_by
  · have hlt := TypedExpr.sizeOf_lt_of_mem_children hc
    subst e
    rw [TypedExpr.assign.sizeOf_spec]
    omega
  · subst e
    rw [TypedExpr.assign.sizeOf_spec]
    omega
  · exact TypedExpr.sizeOf_lt_of_mem_children hc

/-! ## Scopes and events -/

theorem lookup_declare (scopes : Scopes) (name x : String) (type : TypeId) :
    (scopes.declare name type).lookup x = if name = x then some type else scopes.lookup x := by
  by_cases hx : name = x
  · simp [Scopes.declare, Scopes.lookup, hx]
  · have hskip : ((name, type) :: scopes.inner).lookup x = scopes.inner.lookup x := by
      rw [List.lookup_cons, beq_false_of_ne (Ne.symm hx)]
    rw [if_neg hx, Scopes.lookup, Scopes.declare, List.findSome?_cons, hskip]
    rfl

theorem lookup_push (scopes : Scopes) (x : String) : scopes.push.lookup x = scopes.lookup x := rfl

variable {settings : Settings} {r : Registry}

/-- The scopes after a statement other than a block have what its code declares. -/
theorem lookup_after {s : TypedStmt} {scopes : Scopes} (h : StmtTyped settings r scopes s)
    (hblock : ¬∃ loc body, s = .block loc body) :
    (s.after scopes).lookup x = (lastDeclared x (stmtEvents s)).or (scopes.lookup x) := by
  have hnone {cx : Context} {e : TypedExpr} (he : Typed cx r e) : lastDeclared x (uses e) = none :=
    lastDeclared_of_usesOnly (uses_typed he)
  cases s with
  | declare loc name type value =>
    have hlast : lastDeclared x (stmtEvents (.declare loc name type value)) =
        if name = x then some type else none := by
      cases value with
      | none => simp [stmtEvents, lastDeclared]
      | some value => simp [stmtEvents, lastDeclared, lastDeclared_append, hnone (h value rfl)]
    rw [TypedStmt.after, lookup_declare, hlast]
    split <;> rfl
  | expr loc e =>
    rw [stmtEvents, hnone h]
    rfl
  | nonAssign loc e =>
    rw [stmtEvents]
    split
    · rfl
    · rw [hnone h]
      rfl
  | block loc body => exact absurd ⟨loc, body, rfl⟩ hblock
  | localFunction | useNamespace => rfl

mutual

/-- A name that is used before it is declared is used under the type that its scopes give. -/
theorem stmt_exposed :
    ∀ {s : TypedStmt} {scopes : Scopes}, StmtTyped settings r scopes s →
      t ∈ exposed x (stmtEvents s) → scopes.lookup x = some t
  | .declare _ name type none, _, _, ht => by simp [stmtEvents, exposed] at ht
  | .declare _ name type (some value), _, h, ht => by
    rw [stmtEvents, List.cons_append, exposed] at ht
    split at ht
    · cases ht
    · rename_i hx
      rcases mem_exposed_append.1 ht with ht | ⟨-, ht⟩
      · exact (uses_typed (h value rfl)).of_exposed ht
      · simp [exposed, hx] at ht
  | .expr _ e, _, h, ht => (uses_typed h).of_exposed ht
  | .nonAssign _ e, _, h, ht => by
    rw [stmtEvents] at ht
    split at ht
    · cases ht
    · exact (uses_typed h).of_exposed ht
  | .block _ body, scopes, h, ht => lookup_push scopes x ▸ body_exposed h ht
  | .localFunction .., _, _, ht | .useNamespace .., _, _, ht => nomatch ht

theorem body_exposed :
    ∀ {body : List TypedStmt} {scopes : Scopes}, BodyTyped settings r scopes body →
      t ∈ exposed x (bodyEvents body) → scopes.lookup x = some t
  | [], _, _, ht => nomatch ht
  | s :: rest, scopes, h, ht => by
    rcases mem_exposed_append.1 ht with ht | ⟨hnone, ht⟩
    · exact stmt_exposed h.1 ht
    · have hlookup := body_exposed h.2 ht
      by_cases hs : ∃ loc body, s = .block loc body
      · obtain ⟨loc, body, rfl⟩ := hs
        exact hlookup
      · rwa [lookup_after h.1 hs, hnone, Option.none_or] at hlookup

end

/-! ## When scopes are kept -/

mutual

theorem stmtKeeps_of_agrees :
    ∀ {s : TypedStmt} {memory : String → Option TypeId}, Agrees memory (stmtEvents s) → StmtKeeps s
  | .declare _ name type (some value), _, h => by
    intro t ht
    have hvalue : Agrees (Function.update _ name (some type)) (uses value) := (agrees_append.1 h).1
    have hfound := hvalue.exposed ht
    rw [Function.update_self] at hfound
    exact (Option.some.inj hfound).symm
  | .block _ _, _, h => bodyKeeps_of_agrees h
  | .declare _ _ _ none, _, _ | .expr .., _, _ | .nonAssign .., _, _ | .localFunction .., _, _
  | .useNamespace .., _, _ => trivial

theorem bodyKeeps_of_agrees :
    ∀ {body : List TypedStmt} {memory : String → Option TypeId},
      Agrees memory (bodyEvents body) → BodyKeeps body
  | [], _, _ => trivial
  | s :: rest, memory, h => by
    obtain ⟨hs, hrest⟩ := agrees_append.1 h
    refine ⟨stmtKeeps_of_agrees hs, ?_, bodyKeeps_of_agrees hrest⟩
    rintro loc body rfl x type hlast t ht
    have hfound := hrest.exposed ht
    rw [remember_apply, stmtEvents, hlast] at hfound
    exact (Option.some.inj hfound).symm

end

mutual

theorem agrees_of_stmtKeeps :
    ∀ {s : TypedStmt} {scopes : Scopes} {memory : String → Option TypeId},
      StmtTyped settings r scopes s → StmtKeeps s →
      (∀ x, ∀ t ∈ exposed x (stmtEvents s), memory x = some t) → Agrees memory (stmtEvents s)
  | .declare _ _ _ none, _, _, _, _, _ => trivial
  | .declare _ name type (some value), _, memory, h, hkeeps, hmem => by
    have huses := uses_typed (h value rfl)
    have hstored : remember (Function.update memory name (some type)) (uses value) name =
        some type := by
      rw [remember_apply, lastDeclared_of_usesOnly huses, Option.none_or, Function.update_self]
    refine agrees_append.2 ⟨huses.agrees ?_, hstored, trivial⟩
    intro x t ht
    by_cases hx : name = x
    · subst hx
      rw [Function.update_self, hkeeps t ht]
    · rw [Function.update_of_ne (Ne.symm hx)]
      refine hmem x t ?_
      rw [stmtEvents, List.cons_append, exposed, if_neg hx]
      exact mem_exposed_append.2 (.inl ht)
  | .expr .., _, _, h, _, hmem => (uses_typed h).agrees hmem
  | .nonAssign _ e, _, _, h, _, hmem => by
    rw [stmtEvents] at hmem ⊢
    split
    · trivial
    · rename_i hpure
      rw [if_neg hpure] at hmem
      exact (uses_typed h).agrees hmem
  | .block .., _, _, h, hkeeps, hmem => agrees_of_bodyKeeps h hkeeps hmem
  | .localFunction .., _, _, _, _, _ | .useNamespace .., _, _, _, _, _ => trivial

theorem agrees_of_bodyKeeps :
    ∀ {body : List TypedStmt} {scopes : Scopes} {memory : String → Option TypeId},
      BodyTyped settings r scopes body → BodyKeeps body →
      (∀ x, ∀ t ∈ exposed x (bodyEvents body), memory x = some t) → Agrees memory (bodyEvents body)
  | [], _, _, _, _, _ => trivial
  | s :: rest, scopes, memory, h, hkeeps, hmem => by
    obtain ⟨hs, hblock, hrest⟩ := hkeeps
    refine agrees_append.2 ⟨agrees_of_stmtKeeps h.1 hs ?_, agrees_of_bodyKeeps h.2 hrest ?_⟩
    · intro x t ht
      exact hmem x t (mem_exposed_append.2 (.inl ht))
    · intro x t ht
      rw [remember_apply]
      cases hlast : lastDeclared x (stmtEvents s) with
      | none => exact hmem x t (mem_exposed_append.2 (.inr ⟨hlast, ht⟩))
      | some type =>
        by_cases hs : ∃ loc body, s = .block loc body
        · obtain ⟨loc, body, rfl⟩ := hs
          rw [hblock loc body rfl x type hlast t ht]
          rfl
        · -- The scopes of the rest give `x` the declared type, so that it is used under this.
          have hlookup := body_exposed h.2 ht
          rwa [lookup_after h.1 hs, hlast] at hlookup

end

/-- The code of a resolved unit touches local variables as its trees do, in their order, and
each finds the type that resolution gave the variable exactly if no initializer uses its own
name, and nothing after a block a name of the block, under another type. -/
theorem scopes_kept_iff {r₀ : Registry} {body : List Stmt}
    {o : Outcome (Option (List TypedStmt) × Scopes)} {typed : List TypedStmt} {code : List Instr}
    (ho : statements .fresh body ⟨settings, .fresh⟩ r₀ = .ok o) (htyped : o.value.1 = some typed)
    (hcode : (unitCode o.registry typed).result = .ok (.ok code)) :
    code.filterMap Instr.touch? = (bodyEvents typed).map LocalEvent.touch ∧
    (Agrees (fun _ => none) (bodyEvents typed) ↔ BodyKeeps typed) := by
  obtain ⟨-, hbody, -⟩ := (statements_thread body .fresh _ r₀ o ho).quiet typed htyped
  obtain ⟨hstop, rfl⟩ := Emission.result_eq_ok.1 hcode
  refine ⟨unitCode_touches o.registry typed hstop, bodyKeeps_of_agrees, fun hkeeps => ?_⟩
  refine agrees_of_bodyKeeps hbody hkeeps fun x t ht => ?_
  -- A unit starts without variables, so that nothing in it is used before it is declared.
  have hfound : Scopes.fresh.lookup x = some t := body_exposed hbody ht
  cases hfound

/-- A text and then its length, in variables of one name. -/
def textDeclaration : Stmt :=
  .declare .origin ⟨"x", none, some (.literal .origin (.string "a")), .origin⟩

def lengthDeclaration : Stmt :=
  .declare .origin ⟨"x", none, some (.member .origin (.name .origin "x") "length"), .origin⟩

def textTyped : TypedStmt :=
  .declare .origin "x" .string (some (.constant (.value .string .origin) (.string "a")))

def lengthField : TypedExpr :=
  .instanceField ⟨.int, .place, .origin⟩ (.localVar ⟨.string, .place, .origin⟩ "x") .string "length"

def lengthTyped : TypedStmt :=
  .declare .origin "x" .int (some lengthField)

theorem declarations_resolve :
    statements .fresh [textDeclaration, lengthDeclaration] ⟨{}, .fresh⟩
        (.bootstrap defaultRoot) =
      .ok ⟨(some [textTyped, lengthTyped], (Scopes.fresh.declare "x" .string).declare "x" .int), [],
        .bootstrap defaultRoot⟩ := by
  have htext : statement .fresh textDeclaration ⟨{}, .fresh⟩ (.bootstrap defaultRoot) =
      .ok ⟨(some textTyped, Scopes.fresh.declare "x" .string), [], .bootstrap defaultRoot⟩ := rfl
  have hlength : statement (Scopes.fresh.declare "x" .string) lengthDeclaration ⟨{}, .fresh⟩
      (.bootstrap defaultRoot) =
        .ok ⟨(some lengthTyped, (Scopes.fresh.declare "x" .string).declare "x" .int), [],
          .bootstrap defaultRoot⟩ := rfl
  have hrest : statements (Scopes.fresh.declare "x" .string) [lengthDeclaration] ⟨{}, .fresh⟩
      (.bootstrap defaultRoot) =
        .ok ⟨(some [lengthTyped], (Scopes.fresh.declare "x" .string).declare "x" .int), [],
          .bootstrap defaultRoot⟩ := by
    rw [statements, bind_run, hlength]
    rfl
  rw [statements, bind_run, htext]
  simp only [bind_run, hrest]
  rfl

theorem lengthField_uses : uses lengthField = [.use "x" .string] := by
  simp [lengthField, uses_eq, TypedExpr.children, ownUse]

/-- The text is loaded from a variable that has been declared to be a number. -/
theorem initializer_sees_own_declaration :
    statements .fresh [textDeclaration, lengthDeclaration] ⟨{}, .fresh⟩
        (.bootstrap defaultRoot) =
      .ok ⟨(some [textTyped, lengthTyped], (Scopes.fresh.declare "x" .string).declare "x" .int), [],
        .bootstrap defaultRoot⟩ ∧
    (unitCode (.bootstrap defaultRoot) [textTyped, lengthTyped]).result = .ok (.ok [
      .declareLocal "x" .string, .ldStr "a", .stLoc "x",
      .declareLocal "x" .int, .ldLoc "x", .ldFld .string "length", .stLoc "x"]) ∧
    ¬Agrees (fun _ => none) (bodyEvents [textTyped, lengthTyped]) := by
  refine ⟨declarations_resolve, rfl, fun hagrees => ?_⟩
  obtain ⟨-, hiff⟩ := scopes_kept_iff declarations_resolve rfl rfl
  obtain ⟨-, -, hlength, -⟩ := hiff.1 hagrees
  have hused : TypeId.string ∈ exposed "x" (uses lengthField) := by
    rw [lengthField_uses]
    exact List.mem_singleton_self _
  exact absurd (hlength _ hused) (by decide)

end Dynascript.Native
