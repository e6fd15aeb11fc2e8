import Dynascript.Proofs.Native.Refusals
import Dynascript.Proofs.Program.Order

/-!
# Checking a program again

A run of `check` leaves all the types that its units make. A second run makes the same requests,
finds their answers in the registry, and repeats the first to the letter (`checkUnits_repeated`).
The units that resolved can be written out over any later registry, native code with a refusal at
worst (`emitBody_answers`), so `compile` after `check` comes to an end and writes what emitting the
first check writes, unless there was an error (`recheck_repeats`).
-/

namespace Dynascript.Program

variable {R R' : Registry} {settings : Settings}

/-! ## The second run -/

theorem checkUnit_makes (hR : R.Valid) (settings : Settings) (u : SourceUnit) :
    ∃ first, checkUnit settings R u = .ok first ∧ R.Makes first.registry := by
  obtain ⟨o, ho, hmakes, -⟩ := Resolve.statements_makes hR settings u.body
  exact ⟨_, checkUnit_eq ho, hmakes⟩

theorem checkUnit_repeated (hR : R.Valid) (hmakes : R.Makes R') {u : SourceUnit}
    {first : Outcome CheckedUnit} (h : checkUnit settings R u = .ok first)
    (hgrows : first.registry.Grows R') :
    checkUnit settings R' u = .ok ⟨first.value, first.filed, R'⟩ := by
  obtain ⟨o, ho, -, -⟩ := Resolve.statements_makes hR settings u.body
  cases (checkUnit_eq ho).symm.trans h
  exact checkUnit_eq (Resolve.statements_repeated hR hmakes ho hgrows)

/-- A run of units, taken apart : the first unit, and the others after it. -/
theorem checkUnits_cons {u : SourceUnit} {us : List SourceUnit}
    {done : Outcome (List CheckedUnit)} (hR : R.Valid)
    (h : checkUnits settings R (u :: us) = .ok done) :
    ∃ first rest, checkUnit settings R u = .ok first ∧ R.Makes first.registry ∧
      checkUnits settings first.registry us = .ok rest ∧
      done = ⟨first.value :: rest.value, first.filed ++ rest.filed, rest.registry⟩ := by
  obtain ⟨first, hfirst, hmakes⟩ := checkUnit_makes hR settings u
  obtain ⟨_, hfirst', h⟩ := bind_eq_ok.1 h
  cases hfirst'.symm.trans hfirst
  obtain ⟨rest, hrest, h⟩ := bind_eq_ok.1 h
  cases h
  exact ⟨first, rest, hfirst, hmakes, hrest, rfl⟩

theorem checkUnits_makes (hR : R.Valid) {us : List SourceUnit} {done : Outcome (List CheckedUnit)}
    (h : checkUnits settings R us = .ok done) : R.Makes done.registry := by
  obtain ⟨done', hdone', hmakes, -⟩ := checkUnits_alone hR settings us .refl
  cases hdone'.symm.trans h
  exact hmakes

/-- Units that are checked where all their types are already made come to the same, and make
nothing. -/
theorem checkUnits_repeated {us : List SourceUnit} {done : Outcome (List CheckedUnit)}
    (hR : R.Valid) (h : checkUnits settings R us = .ok done) (hmakes : done.registry.Makes R') :
    checkUnits settings R' us = .ok ⟨done.value, done.filed, R'⟩ := by
  induction us generalizing R done with
  | nil =>
    cases h
    rfl
  | cons u us ih =>
    obtain ⟨first, rest, hfirst, hmade, hrest, rfl⟩ := checkUnits_cons hR h
    have hvalid : first.registry.Valid := hmade.valid hR
    have hlater : first.registry.Makes R' := (checkUnits_makes hvalid hrest).trans hmakes
    have hagain := checkUnit_repeated hR (hmade.trans hlater) hfirst hlater.grows
    exact bind_eq_ok.2 ⟨_, hagain, bind_eq_ok.2 ⟨_, ih hvalid hrest hmakes, rfl⟩⟩

/-! ## Writing out -/

/-- Resolved statements are written out, or refused, over any later registry. -/
theorem emitBody_answers {p : Program} {body : List Stmt} {o : Resolve.Resolved}
    {typed : List TypedStmt} (hR : R.Valid)
    (ho : Resolve.statements .fresh body ⟨p.settings, .fresh⟩ R = .ok o)
    (htyped : o.value.1 = some typed) (hgrows : o.registry.Grows p.registry)
    (hp : p.registry.Valid) : ∃ result, p.emitBody typed = .ok result := by
  rw [emitBody]
  cases htarget : p.settings.target with
  | native =>
    have hnative : p.settings.isScript = false := by simp [Settings.isScript, htarget]
    have hsound := Native.sound_of_statements hR ho htyped hgrows
    obtain ⟨result, hresult⟩ := (Native.unitCode_emits hp hnative hsound).result
    exact ⟨_, bind_eq_ok.2 ⟨result, hresult, rfl⟩⟩
  | script =>
    have hs : p.settings.isScript = true := by simp [Settings.isScript, htarget]
    have hcomplete : Script.Completes (Script.unitText p.registry 0 typed) :=
      Script.completes_of_statements hs ho htyped hgrows hp.legible 0
    exact ⟨_, bind_eq_ok.2 ⟨_, Script.result_of_completes hcomplete, rfl⟩⟩

theorem emitUnit_answers {p : Program} (hp : p.registry.Valid) {us : List SourceUnit}
    {done : Outcome (List CheckedUnit)} (hR : R.Valid)
    (h : checkUnits p.settings R us = .ok done) (hgrows : done.registry.Grows p.registry) :
    ∀ c ∈ done.value, ∃ result, p.emitUnit c = .ok result := by
  induction us generalizing R done with
  | nil =>
    cases h
    exact nofun
  | cons u us ih =>
    obtain ⟨first, rest, hfirst, hmade, hrest, rfl⟩ := checkUnits_cons hR h
    have hvalid : first.registry.Valid := hmade.valid hR
    refine List.forall_mem_cons.2 ⟨?_, ih hvalid hrest hgrows⟩
    obtain ⟨o, ho, -, -⟩ := Resolve.statements_makes hR p.settings u.body
    cases (checkUnit_eq ho).symm.trans hfirst
    rw [emitUnit]
    cases htyped : o.value.1 with
    | none => exact ⟨_, rfl⟩
    | some typed =>
      exact emitBody_answers hR ho htyped ((checkUnits_makes hvalid hrest).grows.trans hgrows) hp

theorem emitUnits_answers {p : Program} :
    ∀ {cs : List CheckedUnit}, (∀ c ∈ cs, ∃ result, p.emitUnit c = .ok result) →
      ∃ outputs, p.emitUnits cs = .ok outputs
  | [], _ => ⟨[], rfl⟩
  | c :: cs, h => by
    obtain ⟨⟨result, hresult⟩, hcs⟩ := List.forall_mem_cons.1 h
    obtain ⟨outputs, houtputs⟩ := emitUnits_answers hcs
    exact ⟨_, bind_eq_ok.2 ⟨result, hresult, bind_eq_ok.2 ⟨outputs, houtputs, rfl⟩⟩⟩

theorem compile_eq {p p' : Program} {checked : CheckResult} {outputs : List UnitOutput}
    (hcheck : p.check = .ok (checked, p')) (hemit : p'.emit checked = .ok outputs) :
    p.compile = .ok ((checked.log, if checked.log.hasErrors then [] else outputs), p') := by
  refine bind_eq_ok.2 ⟨(checked, p'), hcheck, ?_⟩
  simp only
  split
  · rfl
  · exact bind_eq_ok.2 ⟨outputs, hemit, rfl⟩

/-- Resolving again changes nothing. A unit that is resolved a second time, over the registry that
the first run left, has the same statements and diagnostics and makes no types. A program that is
checked a second time has the same units and log, and `compile` then gives that log, the outputs
that emitting the first check gives, unless it has an error, and no types. -/
theorem recheck_repeats (hR : R.Valid) (settings : Settings) :
    (∀ body, ∃ o, Resolve.statements .fresh body ⟨settings, .fresh⟩ R = .ok o ∧
      Resolve.statements .fresh body ⟨settings, .fresh⟩ o.registry = .ok o) ∧
    ∀ units, ∃ checked r outputs,
      let p : Program := ⟨settings, r, units⟩
      check ⟨settings, R, units⟩ = .ok (checked, p) ∧ p.check = .ok (checked, p) ∧
        p.emit checked = .ok outputs ∧
        p.compile = .ok ((checked.log, if checked.log.hasErrors then [] else outputs), p) := by
  constructor
  · intro body
    obtain ⟨o, ho, hmakes, -⟩ := Resolve.statements_makes hR settings body
    exact ⟨o, ho, Resolve.statements_repeated hR hmakes ho (.refl _)⟩
  · intro units
    obtain ⟨done, hdone, hmakes, -⟩ := checkUnits_alone hR settings units .refl
    let p : Program := ⟨settings, done.registry, units⟩
    have hagain : p.check = .ok (⟨done.value, Log.sort done.filed⟩, p) :=
      check_eq (checkUnits_repeated hR hdone .refl)
    have hunits : ∀ c ∈ done.value, ∃ result, p.emitUnit c = .ok result :=
      emitUnit_answers (hmakes.valid hR) hR hdone (.refl _)
    obtain ⟨outputs, houtputs⟩ := emitUnits_answers fun c hc => hunits c (List.mem_of_mem_filter hc)
    exact ⟨_, _, outputs, check_eq hdone, hagain, houtputs, compile_eq hagain houtputs⟩

/-- A variable that is an array of strings makes one type, the first time. -/
theorem array_is_made_once :
    let R := Registry.bootstrap defaultRoot
    let body : List Stmt :=
      [.declare .origin ⟨"a", some (.mk "String" [] 1 .origin), none, .origin⟩]
    R.Valid ∧ R.table.entries.size = 22 ∧
      (∃ o, Resolve.statements .fresh body ⟨{}, .fresh⟩ R = .ok o ∧
        Resolve.statements .fresh body ⟨{}, .fresh⟩ o.registry = .ok o ∧
        o.value.1 = some [.declare .origin "a" ⟨22⟩ none] ∧ o.registry.table.entries.size = 23) ∧
      ∃ checked p outputs, check ⟨{}, R, [⟨"main", 0, body⟩]⟩ = .ok (checked, p) ∧
        p.compile = .ok ((checked.log, if checked.log.hasErrors then [] else outputs), p) := by
  intro R body
  have hR : R.Valid := Registry.bootstrap_valid defaultRoot
  obtain ⟨unit, program⟩ := recheck_repeats hR {}
  obtain ⟨o, ho, hagain⟩ := unit body
  obtain ⟨checked, r, outputs, hcheck, -, -, hcompile⟩ := program [⟨"main", 0, body⟩]
  cases ho.symm.trans (statements_strings rfl)
  have hhandle : (R.makeArray .string 1).1 = ⟨22⟩ := by decide +kernel
  have hsize : (R.makeArray .string 1).2.table.entries.size = 23 := by decide +kernel
  refine ⟨hR, rfl, ⟨_, ho, hagain, ?_, hsize⟩, checked, _, outputs, hcheck, hcompile⟩
  simp only [hhandle]

/-- A unit that fails stops the output of a unit that resolved, which emitting the check would
write. -/
theorem failed_unit_stops_output :
    let R := Registry.bootstrap defaultRoot
    let units : List SourceUnit := [⟨"a", 0, []⟩, ⟨"b", 1, [.expr .origin (.name .origin "x")]⟩]
    ∃ checked p, check ⟨{}, R, units⟩ = .ok (checked, p) ∧
      p.emit checked = .ok [⟨"a", .ok (.native [])⟩] ∧ p.compile = .ok ((checked.log, []), p) := by
  intro R units
  let d := Diagnostic.ofMessage .unknownName .origin ["x"]
  have hfails : Resolve.statements .fresh [.expr .origin (.name .origin "x")] ⟨{}, .fresh⟩ R =
      .ok ⟨(none, .fresh), [d], R⟩ := by
    rw [Resolve.statements, Resolve.statement]
    simp only [bind_assoc]
    rw [Resolve.bind_run]
    rfl
  have hunits : checkUnits {} R units =
      .ok ⟨[⟨"a", 0, some []⟩, ⟨"b", 1, none⟩], [d.inFile 1], R⟩ :=
    bind_eq_ok.2 ⟨_, rfl, bind_eq_ok.2 ⟨_, bind_eq_ok.2 ⟨_, checkUnit_eq hfails, rfl⟩, rfl⟩⟩
  let p : Program := ⟨{}, R, units⟩
  let checked : CheckResult := ⟨[⟨"a", 0, some []⟩, ⟨"b", 1, none⟩], [d.inFile 1]⟩
  have hlog : Log.sort [d.inFile 1] = [d.inFile 1] := List.mergeSort_singleton _
  have hcheck : p.check = .ok (checked, p) := by
    rw [check_eq hunits, hlog]
  have hemit : p.emit checked = .ok [⟨"a", .ok (.native [])⟩] := rfl
  exact ⟨checked, p, hcheck, hemit, compile_eq hcheck hemit⟩

end Dynascript.Program
