import Dynascript.Proofs.Program.Recheck
import Dynascript.Proofs.Resolve.Queries

/-!
# Which units a program writes

`compile` writes nothing if there is an error. If there is none, every unit was resolved without a
complaint; those with an XML query have failed all the same, and `compile` leaves them out. All
others are written, in the order in which they were added (`compile_outputs`).
-/

namespace Dynascript

theorem Log.hasErrors_sort (log : Log) : log.sort.hasErrors = !log.isEmpty := by
  have herror (d : Diagnostic) : d.isError = true := by
    cases hd : d.severity
    simp [Diagnostic.isError, hd]
  have hperm : log.sort.Perm log := List.mergeSort_perm log _
  rw [hasErrors, hperm.any_eq]
  cases log <;> simp [herror]

namespace Program

variable {R : Registry} {settings : Settings}

theorem emitUnits_names {p : Program} :
    ∀ {cs : List CheckedUnit} {outputs : List UnitOutput}, p.emitUnits cs = .ok outputs →
      outputs.map (·.name) = cs.map (·.name)
  | [], _, h => by
    cases h
    rfl
  | c :: cs, _, h => by
    obtain ⟨first, -, h⟩ := bind_eq_ok.1 h
    obtain ⟨rest, hrest, h⟩ := bind_eq_ok.1 h
    cases h
    simp [emitUnits_names hrest]

/-- A unit that files nothing resolves if and only if it has no query. -/
theorem unitResolves_eq (hR : R.Valid) {u : SourceUnit} (hlog : unitLog settings R u = []) :
    unitResolves settings R u = !Stmt.anyQuery u.body := by
  obtain ⟨o, ho, -, -⟩ := Resolve.statements_makes hR settings u.body
  simp only [unitLog, checkUnit_eq ho, List.map_eq_nil_iff] at hlog
  simp only [unitResolves, checkUnit_eq ho]
  exact Resolve.statements_tell u.body .fresh _ R o ho hlog

/-- The units that are written out are those that resolve on their own. -/
theorem names_of_resolved {us : List SourceUnit} {cs : List CheckedUnit}
    (h : cs.map CheckedUnit.verdict = us.map fun u => (u.name, u.file, unitResolves settings R u)) :
    (cs.filter (·.body.isSome)).map (·.name) =
      (us.filter (unitResolves settings R)).map (·.name) := by
  have hcs : (cs.filter (·.body.isSome)).map (·.name) =
      ((cs.map CheckedUnit.verdict).filter (·.2.2)).map (·.1) := by
    simp [List.filter_map, Function.comp_def, CheckedUnit.verdict]
  rw [hcs, h]
  simp [List.filter_map, Function.comp_def]

/-- What `compile` writes : nothing if there is an error, and else one output for each unit
without an XML query, under its name and in the order of the units. A unit with a query is left
out, and no error tells of it. -/
theorem compile_outputs (hR : R.Valid) (settings : Settings) (units : List SourceUnit) :
    ∃ log outputs p, compile ⟨settings, R, units⟩ = .ok ((log, outputs), p) ∧
      (log.hasErrors = true → outputs = []) ∧
      (log.hasErrors = false → outputs.map (·.name) =
        (units.filter fun u => !Stmt.anyQuery u.body).map (·.name)) := by
  obtain ⟨done, hdone, hmakes, hfiled, hverdicts⟩ := checkUnits_alone hR settings units .refl
  let p : Program := ⟨settings, done.registry, units⟩
  have hunits : ∀ c ∈ done.value, ∃ result, p.emitUnit c = .ok result :=
    emitUnit_answers (hmakes.valid hR) hR hdone (.refl _)
  obtain ⟨outputs, houtputs⟩ := emitUnits_answers fun c hc => hunits c (List.mem_of_mem_filter hc)
  refine ⟨_, _, p, compile_eq (check_eq hdone) houtputs, fun herror => if_pos herror,
    fun herror => ?_⟩
  rw [if_neg (by simp [herror]), emitUnits_names houtputs, names_of_resolved hverdicts]
  rw [Log.hasErrors_sort, hfiled] at herror
  have hlogs : ∀ u ∈ units, unitLog settings R u = [] := by simpa using herror
  rw [List.filter_congr fun u hu => unitResolves_eq hR (hlogs u hu)]

/-- Of two units, the second with an XML query, the first is written, and nothing is said of the
second. -/
theorem query_unit_left_out :
    let query : Expr := .xmlQuery .origin (.undefined .origin) (.undefined .origin)
    let units : List SourceUnit := [⟨"a", 0, []⟩, ⟨"b", 1, [.nonAssign .origin query]⟩]
    ∃ outputs p, compile ⟨{}, .bootstrap defaultRoot, units⟩ = .ok (([], outputs), p) ∧
      outputs.map (·.name) = ["a"] := by
  intro query units
  let R := Registry.bootstrap defaultRoot
  have hfails : Resolve.statements .fresh [.nonAssign .origin query] ⟨{}, .fresh⟩ R =
      .ok ⟨(none, .fresh), [], R⟩ := by
    rw [Resolve.statements, Resolve.statement]
    simp only [bind_assoc]
    rw [Resolve.bind_run]
    rfl
  have hunits : checkUnits {} R units = .ok ⟨[⟨"a", 0, some []⟩, ⟨"b", 1, none⟩], [], R⟩ :=
    bind_eq_ok.2 ⟨_, rfl, bind_eq_ok.2 ⟨_, bind_eq_ok.2 ⟨_, checkUnit_eq hfails, rfl⟩, rfl⟩⟩
  let p : Program := ⟨{}, R, units⟩
  let checked : CheckResult := ⟨[⟨"a", 0, some []⟩, ⟨"b", 1, none⟩], []⟩
  have hlog : Log.sort [] = [] := List.mergeSort_nil
  have hcheck : p.check = .ok (checked, p) := by
    rw [check_eq hunits, hlog]
  have hemit : p.emit checked = .ok [⟨"a", .ok (.native [])⟩] := rfl
  have hcompile := compile_eq hcheck hemit
  obtain ⟨log, outputs, p', h, -, hnames⟩ :=
    compile_outputs (Registry.bootstrap_valid defaultRoot) {} units
  cases hcompile.symm.trans h
  exact ⟨_, _, h, hnames rfl⟩

end Program

end Dynascript
