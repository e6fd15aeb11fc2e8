import Dynascript.Proofs.Program.Order
import Dynascript.Proofs.Resolve.Filing

/-!
# The log of a program

`check` sorts the diagnostics of all units at once, by file and position. Every diagnostic has a
place, and the units have files of their own, numbered in the order in which they were added. So
the sorted log is the logs of the units one after the other, each sorted by position alone
(`Log.byStart`, `Log.merged`).

`check_log_eq` says so for every program, as an equation between what `check` gives and what the
units file : if a dangling handle ends the one, it ends the other.
-/

namespace Dynascript

namespace Diagnostic

/-- Where in its file the complaint is. -/
def start (d : Diagnostic) : Nat := d.sortKey.2

/-- `a` starts before `b` or at the same position, whatever their files. -/
def startsBefore (a b : Diagnostic) : Bool := a.start ≤ b.start

theorem startsBefore_iff {a b : Diagnostic} : a.startsBefore b = true ↔ a.start ≤ b.start := by
  simp [startsBefore]

theorem startsBefore_trans (a b c : Diagnostic) (hab : a.startsBefore b = true)
    (hbc : b.startsBefore c = true) : a.startsBefore c = true := by
  rw [startsBefore_iff] at hab hbc ⊢
  omega

theorem startsBefore_total (a b : Diagnostic) : (a.startsBefore b || b.startsBefore a) = true := by
  rw [Bool.or_eq_true, startsBefore_iff, startsBefore_iff]
  omega

end Diagnostic

namespace Log

/-- The log by position, in the order of filing at the same position. -/
def byStart (log : Log) : Log := log.mergeSort Diagnostic.startsBefore

/-- Logs one after the other, each placed in its file and by position. The files are numbered
from `first` on. -/
def merged (first : Nat) (logs : List Log) : Log :=
  (logs.zipIdx first).flatMap fun p => byStart (p.1.map (Diagnostic.inFile p.2))

/-! ## Sorting by position -/

theorem byStart_perm (log : Log) : log.byStart.Perm log := List.mergeSort_perm ..

theorem byStart_pairwise (log : Log) : log.byStart.Pairwise fun a b => a.start ≤ b.start :=
  (List.pairwise_mergeSort Diagnostic.startsBefore_trans Diagnostic.startsBefore_total log).imp
    Diagnostic.startsBefore_iff.1

theorem filter_byStart (log : Log) (n : Nat) :
    log.byStart.filter (·.start == n) = log.filter (·.start == n) := by
  refine filter_mergeSort Diagnostic.startsBefore_trans Diagnostic.startsBefore_total
    (fun a b ha hb => ?_) log
  exact Diagnostic.startsBefore_iff.2 (Nat.le_of_eq ((eq_of_beq ha).trans (eq_of_beq hb).symm))

/-- In one file the position alone decides. -/
theorem sort_eq_byStart {log : Log} {file : Nat} (h : ∀ d ∈ log, d.sortKey.1 = file) :
    log.sort = log.byStart := by
  have hfile : ∀ d ∈ log.byStart, d.sortKey.1 = file := fun d hd => h d (log.byStart_perm.subset hd)
  refine eq_of_atPlace (sort_pairwise log) ?_ fun key => ?_
  · refine log.byStart_pairwise.imp_of_mem fun ha hb hstart => ?_
    rw [Diagnostic.before_iff, hfile _ ha, hfile _ hb]
    exact .inr ⟨rfl, hstart⟩
  · rw [atPlace_sort]
    refine (filter_mergeSort Diagnostic.startsBefore_trans Diagnostic.startsBefore_total
      (fun a b ha hb => ?_) log).symm
    have hkey : a.sortKey = b.sortKey := (eq_of_beq ha).trans (eq_of_beq hb).symm
    exact Diagnostic.startsBefore_iff.2 (Nat.le_of_eq (congrArg Prod.snd hkey))

/-- Logs of different files are sorted one after the other. -/
theorem sort_append {log log' : Log}
    (h : ∀ a ∈ log, ∀ b ∈ log', a.sortKey.1 < b.sortKey.1) :
    sort (log ++ log') = log.sort ++ log'.sort := by
  have hmem {l : Log} {d : Diagnostic} : d ∈ l.sort ↔ d ∈ l :=
    (List.mergeSort_perm l Diagnostic.before).mem_iff
  refine eq_of_atPlace (sort_pairwise _) ?_ fun key => ?_
  · refine List.pairwise_append.2 ⟨sort_pairwise log, sort_pairwise log', fun a ha b hb => ?_⟩
    exact Diagnostic.before_iff.2 (.inl (h a (hmem.1 ha) b (hmem.1 hb)))
  · have happend (l l' : Log) : atPlace (l ++ l') key = l.atPlace key ++ l'.atPlace key :=
      List.filter_append ..
    rw [atPlace_sort, happend, happend, atPlace_sort, atPlace_sort]

/-- Sorting logs that were placed in their files merges them. -/
theorem sort_placed {logs : List Log} (first : Nat) (h : ∀ log ∈ logs, log.Placed) :
    sort ((logs.zipIdx first).flatMap fun p => p.1.map (Diagnostic.inFile p.2)) =
      merged first logs := by
  induction logs generalizing first with
  | nil => simp [sort, merged]
  | cons log logs ih =>
    obtain ⟨hlog, hlogs⟩ := List.forall_mem_cons.1 h
    have hfirst : ∀ d ∈ log.map (Diagnostic.inFile first), d.sortKey.1 = first := by
      intro d hd
      obtain ⟨filed, hfiled, rfl⟩ := List.mem_map.1 hd
      exact Program.sortKey_inFile first (hlog filed hfiled)
    have hrest : ∀ d ∈ (logs.zipIdx (first + 1)).flatMap fun p => p.1.map (Diagnostic.inFile p.2),
        first < d.sortKey.1 := by
      intro d hd
      obtain ⟨⟨l, file⟩, hp, hd⟩ := List.mem_flatMap.1 hd
      obtain ⟨filed, hfiled, rfl⟩ := List.mem_map.1 hd
      have hl : l ∈ logs := List.fst_mem_of_mem_zipIdx hp
      rw [Program.sortKey_inFile file (hlogs l hl filed hfiled)]
      exact List.le_snd_of_mem_zipIdx hp
    rw [merged, List.zipIdx_cons, List.flatMap_cons, List.flatMap_cons, ← merged,
      sort_append fun a ha b hb => hfirst a ha ▸ hrest b hb, sort_eq_byStart hfirst,
      ih (first + 1) hlogs]

end Log

namespace Program

variable {R R' : Registry} {settings : Settings}

/-! ## What the units file -/

/-- What units file, each resolved on the registry that the one before it left. -/
def filedLogs (settings : Settings) : Registry → List (List Stmt) → Except Dangling (List Log)
  | _, [] => return []
  | registry, body :: bodies => do
    let done ← Resolve.statements .fresh body ⟨settings, .fresh⟩ registry
    let logs ← filedLogs settings done.registry bodies
    return done.filed :: logs

/-- `log` is what the unit files on `r`. -/
def Files (settings : Settings) (r : Registry) (body : List Stmt) (log : Log) : Prop :=
  ∃ o, Resolve.statements .fresh body ⟨settings, .fresh⟩ r = .ok o ∧ o.filed = log

theorem filedLogs_placed : ∀ {bodies : List (List Stmt)} {r : Registry} {logs : List Log},
    filedLogs settings r bodies = .ok logs → ∀ log ∈ logs, log.Placed
  | [], _, _, h => by
    cases h
    exact List.forall_mem_nil _
  | body :: bodies, r, logs, h => by
    obtain ⟨done, hdone, h⟩ := bind_eq_ok.1 h
    obtain ⟨rest, hrest, h⟩ := bind_eq_ok.1 h
    cases h
    exact List.forall_mem_cons.2
      ⟨Resolve.statements_places body .fresh _ r done hdone, filedLogs_placed hrest⟩

/-- Over valid handles every unit files what it files alone. -/
theorem filedLogs_alone (hR : R.Valid) (settings : Settings) :
    ∀ (bodies : List (List Stmt)) {R' : Registry}, R.Makes R' →
      ∃ logs, filedLogs settings R' bodies = .ok logs ∧
        List.Forall₂ (Files settings R) bodies logs
  | [], _, _ => ⟨[], rfl, .nil⟩
  | body :: bodies, R', hmakes => by
    obtain ⟨w, o, o', ho, ho', -, hright, hfiled, -, -⟩ :=
      Resolve.statements_paired hR hmakes settings body
    obtain ⟨logs, hlogs, hrest⟩ := filedLogs_alone hR settings bodies
      (hright ▸ w.rightMakesFrom : R.Makes o'.registry)
    exact ⟨o'.filed :: logs, bind_eq_ok.2 ⟨o', ho', bind_eq_ok.2 ⟨logs, hlogs, rfl⟩⟩,
      .cons ⟨o, ho, hfiled.symm⟩ hrest⟩

/-! ## The units of a program -/

/-- A source with the number it was added under. -/
def numbered (source : (String × List Stmt) × Nat) : SourceUnit :=
  ⟨source.1.1, source.2, source.1.2⟩

theorem addAll_units (sources : List (String × List Stmt)) (p : Program) :
    (p.addAll sources).units =
      p.units ++ (sources.zipIdx p.units.length).map numbered := by
  induction sources generalizing p with
  | nil => simp [addAll]
  | cons source sources ih =>
    have hunits : (p.addUnit source.1 source.2).units =
        p.units ++ [numbered (source, p.units.length)] := rfl
    rw [addAll, List.foldl_cons, ← addAll, ih, hunits]
    simp

/-- The units of a program file what they file one after the other, each in its file. -/
theorem checkUnits_filed (settings : Settings) :
    ∀ (sources : List (String × List Stmt)) (r : Registry) (first : Nat),
      (checkUnits settings r ((sources.zipIdx first).map numbered)).map (·.filed) =
        (filedLogs settings r (sources.map Prod.snd)).map fun logs =>
          (logs.zipIdx first).flatMap fun p => p.1.map (Diagnostic.inFile p.2)
  | [], _, _ => rfl
  | source :: sources, r, first => by
    rw [List.zipIdx_cons, List.map_cons, List.map_cons, checkUnits, filedLogs, checkUnit]
    simp only [numbered]
    cases Resolve.statements .fresh source.2 ⟨settings, .fresh⟩ r with
    | error d => rfl
    | ok done =>
      have ih := checkUnits_filed settings sources done.registry (first + 1)
      simp only [bind, Except.bind, pure, Except.pure]
      cases hlogs : filedLogs settings done.registry (sources.map Prod.snd) <;>
        cases hrest : checkUnits settings done.registry
          ((sources.zipIdx (first + 1)).map numbered) <;>
        simp_all [Except.map]

theorem check_log_map (p : Program) : p.check.map (·.1.log) =
    ((checkUnits p.settings p.registry p.units).map (·.filed)).map Log.sort := by
  unfold check
  cases checkUnits p.settings p.registry p.units <;> rfl

/-- The log of a program is the logs of its units, in the order in which they were added : each
is placed in the unit's file and sorted by position. Sorting by position loses nothing, adds
nothing, and keeps the order of filing at a position. Over valid handles there is a log, and each
unit files what it files alone. -/
theorem check_log_eq (settings : Settings) (R : Registry) (sources : List (String × List Stmt)) :
    ((withRegistry settings R).addAll sources).check.map (·.1.log) =
      (filedLogs settings R (sources.map Prod.snd)).map (Log.merged 0) ∧
    (∀ log : Log, log.byStart.Perm log ∧ log.byStart.Pairwise (fun a b => a.start ≤ b.start) ∧
      ∀ n, log.byStart.filter (·.start == n) = log.filter (·.start == n)) ∧
    (R.Valid → ∃ logs, filedLogs settings R (sources.map Prod.snd) = .ok logs ∧
      List.Forall₂ (Files settings R) (sources.map Prod.snd) logs) := by
  refine ⟨?_, fun log => ⟨log.byStart_perm, log.byStart_pairwise, log.filter_byStart⟩,
    fun hR => filedLogs_alone hR settings _ .refl⟩
  obtain ⟨hsettings, hregistry⟩ := addAll_settings (withRegistry settings R) sources
  have hunits : ((withRegistry settings R).addAll sources).units =
      (sources.zipIdx 0).map numbered := addAll_units sources (withRegistry settings R)
  rw [check_log_map, hsettings, hregistry, hunits]
  change ((checkUnits settings R _).map _).map Log.sort = _
  rw [checkUnits_filed]
  cases hlogs : filedLogs settings R (sources.map Prod.snd) with
  | error d => rfl
  | ok logs => exact congrArg Except.ok (Log.sort_placed 0 (filedLogs_placed hlogs))

/-- A statement that is an unknown name. -/
theorem statement_unknown {r : Registry} {loc : Location} {name : String}
    (h : r.lookup name 0 = none) :
    Resolve.statement .fresh (.expr loc (.name loc name)) ⟨settings, .fresh⟩ r =
      .ok ⟨(none, .fresh), [.ofMessage .unknownName loc [name]], r⟩ := by
  have hlocal : Scopes.fresh.lookup name = none := rfl
  rw [Resolve.statement, Resolve.bind_run, Resolve.under, Resolve.resolve,
    Resolve.ofName_unknown hlocal h]
  rfl

/-- Two unknown names that are filed against their order in the file, and one in a second file at
a position before both, which is what the second unit files alone. -/
theorem unknown_names_merged :
    let R := Registry.bootstrap "app"
    let place (file : Nat) (start : Fin 8) : Location :=
      ⟨file, ⟨start, 1, by rw [maxWord]; omega⟩⟩
    let unknown (start : Fin 8) (name : String) : Stmt :=
      .expr (place 0 start) (.name (place 0 start) name)
    let said (file : Nat) (start : Fin 8) (name : String) : Diagnostic :=
      .ofMessage .unknownName (place file start) [name]
    R.Valid ∧ ∃ checked p, ((withRegistry {} R).addAll
        [("a", [unknown 5 "x", unknown 2 "y"]), ("b", [unknown 0 "z"])]).check = .ok (checked, p) ∧
      checked.log = [said 0 2 "y", said 0 5 "x", said 1 0 "z"] ∧
      Files {} R [unknown 0 "z"] [said 0 0 "z"] := by
  intro R place unknown said
  have hR : R.Valid := Registry.bootstrap_valid _
  let sources : List (String × List Stmt) :=
    [("a", [unknown 5 "x", unknown 2 "y"]), ("b", [unknown 0 "z"])]
  obtain ⟨hlog, -, halone⟩ := check_log_eq {} R sources
  obtain ⟨logs, hlogs, hfiled⟩ := halone hR
  have hruns : filedLogs {} R (sources.map Prod.snd) =
      .ok [[said 0 5 "x", said 0 2 "y"], [said 0 0 "z"]] := by
    have hx : R.lookup "x" 0 = none := by decide
    have hy : R.lookup "y" 0 = none := by decide
    have hz : R.lookup "z" 0 = none := by decide
    simp only [sources, unknown, List.map_cons, filedLogs, Resolve.statements, Resolve.bind_run,
      statement_unknown hx, statement_unknown hy]
    rfl
  have hmerged : Log.merged 0 [[said 0 5 "x", said 0 2 "y"], [said 0 0 "z"]] =
      [said 0 2 "y", said 0 5 "x", said 1 0 "z"] := by
    have hswap : Diagnostic.startsBefore (said 0 5 "x") (said 0 2 "y") = false := rfl
    change Log.byStart [said 0 5 "x", said 0 2 "y"] ++ (Log.byStart [said 1 0 "z"] ++ []) = _
    simp [Log.byStart, List.mergeSort, hswap]
  cases hruns.symm.trans hlogs
  obtain ⟨-, hz⟩ := List.forall₂_cons.1 hfiled
  rw [hruns] at hlog
  cases hcheck : ((withRegistry {} R).addAll sources).check with
  | error d =>
    rw [hcheck] at hlog
    cases hlog
  | ok result =>
    rw [hcheck] at hlog
    exact ⟨hR, result.1, result.2, rfl, (Except.ok.inj hlog).trans hmerged,
      (List.forall₂_cons.1 hz).1⟩

end Program

end Dynascript
