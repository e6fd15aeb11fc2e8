import Dynascript.Program
import Dynascript.Proofs.Diagnostic.Sorting
import Dynascript.Proofs.Resolve.Independence
import Dynascript.Proofs.Script.Writing

/-!
# The order of units

Units share a registry, and each leaves types in it that the next ones find there. That does not
show in what comes out : a unit files what it files on its own (`unitLog`), and it resolves if it
does so on its own (`unitResolves`). Diagnostics of different units lie in different files, so the
sorted log of a program does not depend on the order in which its units are resolved
(`units_independent`).
-/

namespace Dynascript

/-- Where a unit is, and whether it resolved. -/
def CheckedUnit.verdict (c : CheckedUnit) : String × Nat × Bool := (c.name, c.file, c.body.isSome)

namespace Program

variable {R R' : Registry} {settings : Settings}

/-! ## Units on their own -/

/-- What a unit files when it is the first to be resolved. -/
def unitLog (settings : Settings) (r : Registry) (u : SourceUnit) : Log :=
  match checkUnit settings r u with
  | .ok done => done.filed
  | .error _ => []

/-- Whether a unit resolves when it is the first to be resolved. -/
def unitResolves (settings : Settings) (r : Registry) (u : SourceUnit) : Bool :=
  match checkUnit settings r u with
  | .ok done => done.value.body.isSome
  | .error _ => false

theorem checkUnit_eq {u : SourceUnit} {o : Resolve.Resolved}
    (ho : Resolve.statements .fresh u.body ⟨settings, .fresh⟩ R = .ok o) :
    checkUnit settings R u =
      .ok ⟨⟨u.name, u.file, o.value.1⟩, o.filed.map (Diagnostic.inFile u.file), o.registry⟩ :=
  bind_eq_ok.2 ⟨o, ho, rfl⟩

/-- A unit comes to the same after others as on its own. -/
theorem checkUnit_alone (hR : R.Valid) (hmakes : R.Makes R') (settings : Settings)
    (u : SourceUnit) :
    ∃ done, checkUnit settings R' u = .ok done ∧ R.Makes done.registry ∧
      done.filed = unitLog settings R u ∧
      done.value.verdict = (u.name, u.file, unitResolves settings R u) := by
  obtain ⟨w, o, o', ho, ho', hleft, hright, hfiled, -, hvalue⟩ :=
    Resolve.statements_paired hR hmakes settings u.body
  have hsame := Resolve.renumbered_of_paired hleft hright hfiled hvalue
  refine ⟨_, checkUnit_eq ho', hright ▸ w.rightMakesFrom, ?_, ?_⟩
  · simp only [unitLog, checkUnit_eq ho, hfiled]
  · simp only [CheckedUnit.verdict, unitResolves, checkUnit_eq ho, hsame.body, Option.isSome_map]

theorem checkUnits_alone (hR : R.Valid) (settings : Settings) :
    ∀ (us : List SourceUnit) {R' : Registry}, R.Makes R' →
      ∃ done, checkUnits settings R' us = .ok done ∧ R.Makes done.registry ∧
        done.filed = us.flatMap (unitLog settings R) ∧
        done.value.map CheckedUnit.verdict =
          us.map fun u => (u.name, u.file, unitResolves settings R u)
  | [], R', hmakes => ⟨_, rfl, hmakes, rfl, rfl⟩
  | u :: us, R', hmakes => by
    obtain ⟨first, hfirst, hmakes', hlog, hverdict⟩ := checkUnit_alone hR hmakes settings u
    obtain ⟨rest, hrest, hmakes'', hlogs, hverdicts⟩ := checkUnits_alone hR settings us hmakes'
    refine ⟨_, bind_eq_ok.2 ⟨first, hfirst, bind_eq_ok.2 ⟨rest, hrest, rfl⟩⟩, hmakes'', ?_, ?_⟩
    · simp only [hlog, hlogs, List.flatMap_cons]
    · simp only [List.map_cons, hverdict, hverdicts]

/-! ## Files -/

theorem sortKey_inFile {d : Diagnostic} (file : Nat) (h : d.location.isSome = true) :
    (d.inFile file).sortKey.1 = file := by
  obtain ⟨loc, hloc⟩ := Option.isSome_iff_exists.1 h
  simp [Diagnostic.inFile, Diagnostic.sortKey, hloc]

/-- A unit complains of its own file only. -/
theorem file_of_mem_unitLog (hR : R.Valid) {u : SourceUnit} {d : Diagnostic}
    (hd : d ∈ unitLog settings R u) : d.sortKey.1 = u.file := by
  obtain ⟨o, ho, -, hplaced⟩ := Resolve.statements_makes hR settings u.body
  simp only [unitLog, checkUnit_eq ho] at hd
  obtain ⟨filed, hfiled, rfl⟩ := List.mem_map.1 hd
  exact sortKey_inFile u.file (hplaced filed hfiled)

/-- At one place lie diagnostics of one unit, so another order of units with files of their own
changes nothing there. -/
theorem atPlace_perm {log : SourceUnit → Log} (hlog : ∀ u, ∀ d ∈ log u, d.sortKey.1 = u.file)
    (key : Nat × Nat) {us us' : List SourceUnit} (h : us.Perm us')
    (hfiles : (us.map SourceUnit.file).Nodup) :
    Log.atPlace (us.flatMap log) key = Log.atPlace (us'.flatMap log) key := by
  unfold Log.atPlace
  induction h with
  | nil => rfl
  | cons u _ ih =>
    rw [List.flatMap_cons, List.flatMap_cons, List.filter_append, List.filter_append,
      ih (List.nodup_cons.1 hfiles).2]
  | swap u v us =>
    have hne : v.file ≠ u.file := fun heq => by simp [heq] at hfiles
    have hempty (u : SourceUnit) (hu : u.file ≠ key.1) :
        (log u).filter (·.sortKey == key) = [] := by
      refine List.filter_eq_nil_iff.2 fun d hd hkey => hu ?_
      rw [← hlog u d hd, eq_of_beq hkey]
    simp only [List.flatMap_cons, List.filter_append]
    by_cases hu : u.file = key.1
    · rw [hempty v (hu ▸ hne), List.nil_append, List.nil_append]
    · rw [hempty u hu, List.nil_append, List.nil_append]
  | trans h _ ih ih' =>
    exact (ih hfiles).trans (ih' ((h.map SourceUnit.file).nodup_iff.1 hfiles))

/-- Add units one after the other. -/
def addAll (p : Program) (sources : List (String × List Stmt)) : Program :=
  sources.foldl (fun p source => p.addUnit source.1 source.2) p

theorem addAll_settings (p : Program) (sources : List (String × List Stmt)) :
    (p.addAll sources).settings = p.settings ∧ (p.addAll sources).registry = p.registry := by
  induction sources generalizing p with
  | nil => exact ⟨rfl, rfl⟩
  | cons source sources ih => exact ih (p.addUnit source.1 source.2)

/-- Units are numbered in the order in which they were added. -/
theorem addAll_files {p : Program} (h : p.units.map SourceUnit.file = List.range p.units.length)
    (sources : List (String × List Stmt)) :
    (p.addAll sources).units.map SourceUnit.file = List.range (p.addAll sources).units.length := by
  induction sources generalizing p with
  | nil => exact h
  | cons source sources ih =>
    refine ih ?_
    simp [addUnit, nextFile, h, List.range_succ]

/-! ## Any order -/

theorem check_eq {p : Program} {done : Outcome (List CheckedUnit)}
    (h : checkUnits p.settings p.registry p.units = .ok done) :
    p.check = .ok (⟨done.value, Log.sort done.filed⟩, { p with registry := done.registry }) :=
  bind_eq_ok.2 ⟨done, h, rfl⟩

/-- Checking the same units in two orders gives the same log, and each unit resolves as it does on
its own. -/
theorem check_perm (hR : R.Valid) (settings : Settings) {units order : List SourceUnit}
    (h : order.Perm units) (hfiles : (units.map SourceUnit.file).Nodup) :
    ∃ checked checked' p p', check ⟨settings, R, units⟩ = .ok (checked, p) ∧
      check ⟨settings, R, order⟩ = .ok (checked', p') ∧ checked'.log = checked.log ∧
      checked.units.map CheckedUnit.verdict =
        units.map (fun u => (u.name, u.file, unitResolves settings R u)) ∧
      checked'.units.map CheckedUnit.verdict =
        order.map (fun u => (u.name, u.file, unitResolves settings R u)) := by
  obtain ⟨done, hdone, -, hlog, hverdict⟩ := checkUnits_alone hR settings units .refl
  obtain ⟨done', hdone', -, hlog', hverdict'⟩ := checkUnits_alone hR settings order .refl
  refine ⟨_, _, _, _, check_eq hdone, check_eq hdone', ?_, hverdict, hverdict'⟩
  refine Log.sort_congr fun key => ?_
  rw [hlog, hlog']
  exact (atPlace_perm (fun u d hd => file_of_mem_unitLog hR hd) key h.symm hfiles).symm

/-! ## Script text -/

theorem emitBody_script (hs : settings.isScript = true) (r : Registry) (body : List TypedStmt) :
    (withRegistry settings r).emitBody body = (do
      let writes ← (Script.unitText r 0 body).result
      return writes.map fun writes => .script (Script.Buffer.empty.writeAll writes).text) := by
  have htarget : settings.target = .script := by simpa [Settings.isScript] using hs
  rw [emitBody, withRegistry, htarget]

/-- What a unit becomes for the script target does not show what others made. -/
theorem emitBody_renumbered {σ : Equiv.Perm TypeId} {body : List Stmt} {o o' : Resolve.Resolved}
    (hs : settings.isScript = true)
    (ho : Resolve.statements .fresh body ⟨settings, .fresh⟩ R = .ok o) (hvalid : o.registry.Valid)
    (hvalid' : o'.registry.Valid) (h : Resolve.Renumbered R σ o o') {typed typed' : List TypedStmt}
    (htyped : typed ∈ o.value.1) (htyped' : typed' ∈ o'.value.1) :
    ∃ text, (withRegistry settings o.registry).emitBody typed = .ok (.ok (.script text)) ∧
      (withRegistry settings o'.registry).emitBody typed' = .ok (.ok (.script text)) := by
  have hrenamed : TypedStmt.renameAll σ typed = typed' := by
    have hbody := h.body
    rw [Option.mem_def.1 htyped, Option.mem_def.1 htyped', Option.map_some] at hbody
    exact (Option.some.inj hbody).symm
  have hnames (t : TypeId) (ht : o.registry.Has t) :
      o'.registry.nameOf (σ t) = o.registry.nameOf t := by
    rw [hvalid'.nameOf (h.has t ht), hvalid.nameOf ht, h.names t ht]
  have hsame : Script.unitText o'.registry 0 typed' = Script.unitText o.registry 0 typed :=
    hrenamed ▸ Script.unitText_rename hnames (h.within typed htyped)
  have hcomplete : Script.Completes (Script.unitText o.registry 0 typed) :=
    Script.completes_of_statements hs ho htyped (.refl _) hvalid.legible 0
  rw [emitBody_script hs, emitBody_script hs, hsame, Script.result_of_completes hcomplete]
  exact ⟨_, rfl, rfl⟩

/-- A variable that is an array of strings makes that type. -/
theorem statements_strings {r : Registry} (hr : r.lookup "String" 0 = some .string) :
    Resolve.statements .fresh
        [.declare .origin ⟨"a", some (.mk "String" [] 1 .origin), none, .origin⟩]
        ⟨settings, .fresh⟩ r =
      .ok ⟨(some [.declare .origin "a" (r.makeArray .string 1).1 none],
        Scopes.fresh.declare "a" (r.makeArray .string 1).1), [], (r.makeArray .string 1).2⟩ := by
  have hwritten : Resolve.writtenType true (.mk "String" [] 1 .origin) ⟨settings, .fresh⟩ r =
      .ok ⟨some (r.makeArray .string 1).1, [], (r.makeArray .string 1).2⟩ := by
    rw [Resolve.writtenType, Resolve.bind_run, Resolve.see, List.length_nil, hr]
    rfl
  have hdeclared : Resolve.declaration .origin
      ⟨"a", some (.mk "String" [] 1 .origin), none, .origin⟩ ⟨settings, .fresh⟩ r =
        .ok ⟨(some (.declare .origin "a" (r.makeArray .string 1).1 none),
          (r.makeArray .string 1).1), [], (r.makeArray .string 1).2⟩ := by
    rw [Resolve.declaration, Resolve.declarationType]
    simp only [bind_assoc]
    rw [Resolve.bind_run, hwritten]
    rfl
  rw [Resolve.statements, Resolve.statement]
  simp only [bind_assoc]
  rw [Resolve.bind_run, Resolve.under, hdeclared]
  rfl

/-- Units are independent of the types that others made. Against a registry and one made from it,
a unit files the same and resolves to the same statements up to a renaming of types that keeps
their names, and has the same script text. So the units of a program may be resolved in any order :
the log of `check` is the same, and the same units resolve. -/
theorem units_independent (hR : R.Valid) (hmakes : R.Makes R') (settings : Settings) :
    (∀ body, ∃ o o' σ, Resolve.statements .fresh body ⟨settings, .fresh⟩ R = .ok o ∧
      Resolve.statements .fresh body ⟨settings, .fresh⟩ R' = .ok o' ∧
      Resolve.Renumbered R σ o o' ∧
      (settings.isScript = true → ∀ typed ∈ o.value.1, ∀ typed' ∈ o'.value.1,
        ∃ text, (withRegistry settings o.registry).emitBody typed = .ok (.ok (.script text)) ∧
          (withRegistry settings o'.registry).emitBody typed' = .ok (.ok (.script text)))) ∧
    ∀ (sources : List (String × List Stmt)) (order : List SourceUnit),
      let p := (withRegistry settings R).addAll sources
      order.Perm p.units → ∃ checked checked' done done', p.check = .ok (checked, done) ∧
        { p with units := order }.check = .ok (checked', done') ∧ checked'.log = checked.log ∧
        checked.units.map CheckedUnit.verdict =
          p.units.map (fun u => (u.name, u.file, unitResolves settings R u)) ∧
        checked'.units.map CheckedUnit.verdict =
          order.map (fun u => (u.name, u.file, unitResolves settings R u)) := by
  constructor
  · intro body
    obtain ⟨o, o', σ, ho, ho', hsame⟩ := Resolve.statements_renumbered hR hmakes settings body
    have hvalid : o.registry.Valid := Resolve.statements_valid hR ho
    have hvalid' : o'.registry.Valid := Resolve.statements_valid (hmakes.valid hR) ho'
    exact ⟨o, o', σ, ho, ho', hsame, fun hs typed htyped typed' htyped' =>
      emitBody_renumbered hs ho hvalid hvalid' hsame htyped htyped'⟩
  · intro sources order p horder
    obtain ⟨hsettings, hregistry⟩ := addAll_settings (withRegistry settings R) sources
    have hfiles : (p.units.map SourceUnit.file).Nodup := by
      rw [addAll_files rfl sources]
      exact List.nodup_range
    have hp (units : List SourceUnit) : { p with units } = ⟨settings, R, units⟩ := by
      rw [hsettings, hregistry]
      rfl
    obtain ⟨checked, checked', done, done', hchecked, hchecked', hrest⟩ :=
      check_perm hR settings horder hfiles
    rw [← hp] at hchecked hchecked'
    exact ⟨checked, checked', done, done', hchecked, hchecked', hrest⟩

/-- After another unit has made an array of integers, an array of strings gets another number,
which does not show in the script text. The array may also be made after an empty unit. -/
theorem array_is_renumbered :
    let settings : Settings := { target := .script }
    let R := Registry.bootstrap defaultRoot
    let R' := (R.makeArray .int 1).2
    let body : List Stmt :=
      [.declare .origin ⟨"a", some (.mk "String" [] 1 .origin), none, .origin⟩]
    R.Valid ∧ R.Makes R' ∧
      (∃ o o' σ, Resolve.statements .fresh body ⟨settings, .fresh⟩ R = .ok o ∧
        Resolve.statements .fresh body ⟨settings, .fresh⟩ R' = .ok o' ∧
        Resolve.Renumbered R σ o o' ∧ σ ⟨22⟩ = ⟨23⟩ ∧ ∃ text,
          (withRegistry settings o.registry).emitBody [.declare .origin "a" ⟨22⟩ none] =
            .ok (.ok (.script text)) ∧
          (withRegistry settings o'.registry).emitBody [.declare .origin "a" ⟨23⟩ none] =
            .ok (.ok (.script text))) ∧
      ∃ checked checked' done done',
        check ⟨settings, R, [⟨"a", 0, body⟩, ⟨"b", 1, []⟩]⟩ = .ok (checked, done) ∧
        check ⟨settings, R, [⟨"b", 1, []⟩, ⟨"a", 0, body⟩]⟩ = .ok (checked', done') ∧
        checked'.log = checked.log := by
  intro settings R R' body
  have hR : R.Valid := Registry.bootstrap_valid defaultRoot
  have hint : R.Has .int := hR.has (by decide)
  have hmakes : R.Makes R' := .step (.makeArray .int 1) .refl trivial
    (List.forall_mem_singleton.2 hint) rfl
  obtain ⟨unit, order⟩ := units_independent hR hmakes settings
  obtain ⟨o, o', σ, ho, ho', hsame, htext⟩ := unit body
  have hleft : (R.makeArray .string 1).1 = ⟨22⟩ := by decide +kernel
  have hright : (R'.makeArray .string 1).1 = ⟨23⟩ := by decide +kernel
  have htyped : o.value.1 = some [.declare .origin "a" ⟨22⟩ none] := by
    cases ho.symm.trans (statements_strings rfl)
    simp only [hleft]
  have htyped' : o'.value.1 = some [.declare .origin "a" ⟨23⟩ none] := by
    have hlookup : R'.lookup "String" 0 = some .string := by
      rw [Registry.lookup, hmakes.grows.names]
      rfl
    cases ho'.symm.trans (statements_strings hlookup)
    simp only [hright]
  have hσ : σ ⟨22⟩ = ⟨23⟩ := by
    have hbody := hsame.body
    rw [htyped, htyped'] at hbody
    simpa [TypedStmt.renameAll, TypedStmt.rename] using hbody.symm
  obtain ⟨checked, checked', done, done', hchecked, hchecked', hlog, -⟩ :=
    order [("a", body), ("b", [])] [⟨"b", 1, []⟩, ⟨"a", 0, body⟩] (.swap ..)
  exact ⟨hR, hmakes, ⟨o, o', σ, ho, ho', hsame, hσ, htext rfl _ htyped _ htyped'⟩,
    checked, checked', done, done', hchecked, hchecked', hlog⟩

end Program

end Dynascript
