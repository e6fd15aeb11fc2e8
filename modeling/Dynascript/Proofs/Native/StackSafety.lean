import Dynascript.Proofs.Native.Balance

/-!
# Stack safety of native units

A unit is safe if its code never takes from an empty stack and the stack is empty after each
of its statements (`EmptyBetween`). `stack_empty_iff` says when that is so : the imbalances
of each statement add up to nothing, and no instruction takes more than the ones before it leave.
Imbalances do come up : an initializer for a collection whose method for adding gives a value
leaves that value behind (`initializer_leaves_value`).
-/

namespace Dynascript.Native

open Resolve

variable {r : Registry} {settings : Settings}

/-! ## Statements -/

mutual

theorem stmtCode_moves :
    ∀ {s : TypedStmt} {scopes : Scopes}, StmtTyped settings r scopes s →
      (stmtCode r s).Yields (Moves r 0 0 (stmtImbalances r s))
  | .declare _ name type none, _, _ => Emission.yields_write (moves_one 0 rfl rfl)
  | .declare _ name type (some value), _, h => by
    have hdeclare : (Emission.write [Instr.declareLocal name type]).Yields (Moves r 0 0 []) :=
      Emission.yields_write (moves_one 0 rfl rfl)
    have hstore : (Emission.write [Instr.stLoc name]).Yields (Moves r 1 0 []) :=
      Emission.yields_write (moves_one 0 rfl rfl)
    have declared := moves_then (moves_then hdeclare (code_moves (h value rfl))) hstore
    simpa [stmtImbalances, stmtCode] using declared
  | .expr _ e, _, h => discard_moves h
  | .nonAssign _ e, _, h => by
    rw [stmtCode, stmtImbalances]
    split
    · exact Emission.yields_write moves_nil
    · exact discard_moves h
  | .block _ body, _, h => unitCode_moves h
  | .localFunction .., _, _ | .useNamespace .., _, _ => Emission.yields_write moves_nil

theorem unitCode_moves :
    ∀ {body : List TypedStmt} {scopes : Scopes}, BodyTyped settings r scopes body →
      (unitCode r body).Yields (Moves r 0 0 (bodyImbalances r body))
  | [], _, _ => Emission.yields_write moves_nil
  | _ :: _, _, h => moves_then (stmtCode_moves h.1) (unitCode_moves h.2)

end

/-! ## Units -/

/-- The code of each statement. -/
def pieces (r : Registry) (body : List TypedStmt) : List (List Instr) :=
  body.map fun s => (stmtCode r s).written

/-- The machine runs through the pieces, and the stack is empty after each of them. -/
def EmptyBetween (r : Registry) (pieces : List (List Instr)) : Prop :=
  ∀ k, runHeight r 0 (pieces.take k).flatten = some 0

/-- What was written for a unit is what was written for its statements. -/
theorem unitCode_written :
    ∀ {body : List TypedStmt}, (unitCode r body).stop = none →
      (unitCode r body).written = (pieces r body).flatten
  | [], _ => rfl
  | s :: rest, h => by
    rw [unitCode] at h ⊢
    obtain ⟨hs, hrest⟩ := Emission.stop_append.1 h
    rw [Emission.written_append hs, unitCode_written hrest]
    rfl

/-- The code of each statement moves the height as its imbalances say. -/
theorem pieces_move :
    ∀ {body : List TypedStmt} {scopes : Scopes}, BodyTyped settings r scopes body →
      (unitCode r body).stop = none →
        ∀ s ∈ body, Moves r 0 0 (stmtImbalances r s) (stmtCode r s).written
  | [], _, _, _ => nofun
  | s :: rest, _, h, hstop => by
    rw [unitCode] at hstop
    obtain ⟨hs, hrest⟩ := Emission.stop_append.1 hstop
    exact List.forall_mem_cons.2 ⟨stmtCode_moves h.1 hs, pieces_move h.2 hrest⟩

theorem emptyBetween_cons {piece : List Instr} {rest : List (List Instr)} :
    EmptyBetween r (piece :: rest) ↔ runHeight r 0 piece = some 0 ∧ EmptyBetween r rest := by
  have run_take (k : Nat) (h : runHeight r 0 piece = some 0) :
      runHeight r 0 ((piece :: rest).take (k + 1)).flatten =
        runHeight r 0 (rest.take k).flatten := by
    rw [List.take_succ_cons, List.flatten_cons, runHeight_append, h]
    rfl
  constructor
  · intro h
    have hpiece : runHeight r 0 piece = some 0 := by simpa using h 1
    exact ⟨hpiece, fun k => run_take k hpiece ▸ h (k + 1)⟩
  · rintro ⟨hpiece, hrest⟩ k
    cases k with
    | zero => rfl
    | succ k => exact (run_take k hpiece).trans (hrest k)

/-- If every piece moves the height by what it misses, the stack is empty between them exactly
if no piece misses anything and the machine does not get stuck. -/
theorem emptyBetween_iff_of_moves :
    ∀ {body : List TypedStmt},
      (∀ s ∈ body, Moves r 0 0 (stmtImbalances r s) (stmtCode r s).written) →
        (EmptyBetween r (pieces r body) ↔
          (runHeight r 0 (pieces r body).flatten).isSome = true ∧
            ∀ s ∈ body, (stmtImbalances r s).sum = 0)
  | [], _ => by simp [EmptyBetween, pieces, runHeight]
  | s :: rest, h => by
    obtain ⟨hs, hrest⟩ := List.forall_mem_cons.1 h
    have ih := emptyBetween_iff_of_moves hrest
    have hnet : net r (stmtCode r s).written = (stmtImbalances r s).sum := by simpa using hs.net
    have hpieces : pieces r (s :: rest) = (stmtCode r s).written :: pieces r rest := rfl
    rw [hpieces, emptyBetween_cons, List.flatten_cons, runHeight_append, List.forall_mem_cons, ih]
    constructor
    · rintro ⟨hrun, hsome, hsums⟩
      have hheight := runHeight_net hrun
      rw [hrun]
      exact ⟨hsome, by omega, hsums⟩
    · rintro ⟨hsome, hsum, hsums⟩
      -- The whole run is not stuck, so the first piece ends, and it ends where the sum says.
      cases hrun : runHeight r 0 (stmtCode r s).written with
      | none => simp [hrun] at hsome
      | some height =>
        have hheight := runHeight_net hrun
        obtain rfl : height = 0 := by omega
        rw [hrun] at hsome
        exact ⟨rfl, hsome, hsums⟩

theorem mem_bodyImbalances {d : Int} :
    ∀ {body : List TypedStmt}, d ∈ bodyImbalances r body → ∃ s ∈ body, d ∈ stmtImbalances r s
  | s :: rest, h => by
    rw [bodyImbalances] at h
    rcases List.mem_append.1 h with h | h
    · exact ⟨s, by simp, h⟩
    · obtain ⟨s', hs', hd⟩ := mem_bodyImbalances h
      exact ⟨s', by simp [hs'], hd⟩

/-- There are not both values too many and values too few. -/
def OneSided (ds : List Int) : Prop := (∀ d ∈ ds, 0 ≤ d) ∨ ∀ d ∈ ds, d ≤ 0

theorem OneSided.all_zero {ds : List Int} (h : OneSided ds) (hsum : ds.sum = 0) :
    ∀ d ∈ ds, d = 0 := by
  intro d hd
  rcases h with h | h
  · exact List.all_zero_of_le_zero_le_of_sum_eq_zero h hsum hd
  · have hneg : ∀ x ∈ ds.map (- ·), 0 ≤ x := by
      intro x hx
      obtain ⟨y, hy, rfl⟩ := List.mem_map.1 hx
      exact Int.neg_nonneg_of_nonpos (h y hy)
    have hsum' : (ds.map (- ·)).sum = 0 := by rw [← List.sum_neg, hsum, neg_zero]
    have hzero := List.all_zero_of_le_zero_le_of_sum_eq_zero hneg hsum' (List.mem_map_of_mem hd)
    omega

/-- The stack of a resolved unit is empty after each statement exactly if the imbalances of
each statement add up to nothing and no instruction takes more values than those before it have
left, as sums. The machine gets stuck only where some node leaves too little. So where values too
many and too few do not come together in one statement, the stack is empty exactly if no node leaves
too many or too few. -/
theorem stack_empty_iff {r₀ : Registry} {body : List Stmt}
    {o : Outcome (Option (List TypedStmt) × Scopes)} {typed : List TypedStmt} {code : List Instr}
    (ho : statements .fresh body ⟨settings, .fresh⟩ r₀ = .ok o) (htyped : o.value.1 = some typed)
    (hcode : (unitCode o.registry typed).result = .ok (.ok code)) :
    code = (pieces o.registry typed).flatten ∧
    (EmptyBetween o.registry (pieces o.registry typed) ↔
      (∀ before i after, code = before ++ i :: after → (i.takes : Int) ≤ net o.registry before) ∧
        ∀ s ∈ typed, (stmtImbalances o.registry s).sum = 0) ∧
    ((∀ s ∈ typed, ∀ d ∈ stmtImbalances o.registry s, 0 ≤ d) →
      (runHeight o.registry 0 code).isSome = true) ∧
    ((∀ s ∈ typed, OneSided (stmtImbalances o.registry s)) →
      (EmptyBetween o.registry (pieces o.registry typed) ↔
        ∀ s ∈ typed, ∀ d ∈ stmtImbalances o.registry s, d = 0)) := by
  obtain ⟨-, hbody, -⟩ := (statements_thread body .fresh _ r₀ o ho).quiet typed htyped
  obtain ⟨hstop, rfl⟩ := Emission.result_eq_ok.1 hcode
  have hiff := emptyBetween_iff_of_moves (pieces_move hbody hstop)
  have hruns (h : ∀ s ∈ typed, ∀ d ∈ stmtImbalances o.registry s, 0 ≤ d) :
      (runHeight o.registry 0 (unitCode o.registry typed).written).isSome = true := by
    refine (unitCode_moves hbody hstop).run (fun d hd => ?_) 0 (Nat.le_refl 0)
    obtain ⟨s, hs, hd⟩ := mem_bodyImbalances hd
    exact h s hs d hd
  rw [← unitCode_written hstop] at hiff
  have hsums : EmptyBetween o.registry (pieces o.registry typed) ↔
      (∀ before i after, (unitCode o.registry typed).written = before ++ i :: after →
        (i.takes : Int) ≤ net o.registry before) ∧
        ∀ s ∈ typed, (stmtImbalances o.registry s).sum = 0 := by
    rw [hiff, isSome_runHeight_iff]
    simp only [Int.natCast_zero, Int.zero_add]
  refine ⟨unitCode_written hstop, hsums, hruns, fun hsided => hiff.trans ⟨?_, ?_⟩⟩
  · rintro ⟨-, hsums⟩ s hs
    exact (hsided s hs).all_zero (hsums s hs)
  · intro hzero
    refine ⟨hruns fun s hs d hd => (hzero s hs d hd).ge, fun s hs => ?_⟩
    exact List.sum_eq_zero (hzero s hs)

/-- A collection that answers the addition of an element with a number, and a declaration of
one with an initializer. -/
def tallyClass : ClassDecl :=
  { name := "Tally", flags := .plainClass, members := [⟨addMethod, .method [.string] .int, false⟩] }

def tallyRegistry : Registry := ((Registry.bootstrap defaultRoot).declare tallyClass).2

def tallyDeclaration : Stmt :=
  .declare .origin ⟨"names", some (.mk "Tally" [] 0 .origin),
    some (.array .origin [.literal .origin (.string "a")] none), .origin⟩

def tallyTyped : TypedStmt :=
  .declare .origin "names" ⟨22⟩ (some
    (.newWith (.value ⟨22⟩ .origin) []
      [.element (.constant (.value .string .origin) (.string "a"))]))

theorem tallyDeclaration_resolves :
    statements .fresh [tallyDeclaration] ⟨{ dialect := .extended }, .fresh⟩ tallyRegistry =
      .ok ⟨(some [tallyTyped], Scopes.fresh.declare "names" ⟨22⟩), [], tallyRegistry⟩ := by
  have hstatement : statement .fresh tallyDeclaration ⟨{ dialect := .extended }, .fresh⟩
      tallyRegistry =
        .ok ⟨(some tallyTyped, Scopes.fresh.declare "names" ⟨22⟩), [], tallyRegistry⟩ := rfl
  rw [statements, bind_run, hstatement]
  rfl

theorem tallyTyped_imbalances : stmtImbalances tallyRegistry tallyTyped = [1, 0] := by
  have hgives : callGives tallyRegistry ⟨22⟩ addMethod = 1 := rfl
  simp [tallyTyped, stmtImbalances, imbalances_eq, TypedExpr.children, Initializer.value, surplus,
    fillSurplus, Info.value, Initializer.isElement, hgives]

/-- The number that comes back from the addition is left on the stack. -/
theorem initializer_leaves_value :
    statements .fresh [tallyDeclaration] ⟨{ dialect := .extended }, .fresh⟩ tallyRegistry =
      .ok ⟨(some [tallyTyped], Scopes.fresh.declare "names" ⟨22⟩), [], tallyRegistry⟩ ∧
    (unitCode tallyRegistry [tallyTyped]).result = .ok (.ok [.declareLocal "names" ⟨22⟩,
      .newObj ⟨22⟩ 0, .dup, .ldStr "a", .callVirt ⟨22⟩ addMethod 1, .stLoc "names"]) ∧
    ¬EmptyBetween tallyRegistry (pieces tallyRegistry [tallyTyped]) := by
  refine ⟨tallyDeclaration_resolves, rfl, fun hempty => ?_⟩
  obtain ⟨-, hiff, -⟩ := stack_empty_iff tallyDeclaration_resolves rfl rfl
  have hsum := (hiff.1 hempty).2 _ (List.mem_singleton_self _)
  rw [tallyTyped_imbalances] at hsum
  exact absurd hsum (by decide)

end Dynascript.Native
