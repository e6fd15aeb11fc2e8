import Dynascript.Program
import Dynascript.Proofs.Resolve.Soundness
import Dynascript.Proofs.Types.Runs

/-!
# The helper behind `typeof`

For the native target `typeof` is a call of a method of the helper class, which `typeof` finds by
its dotted name under the root. The first registry gives that name to the helper, and to no other
type (`lookup_helper`), and names are only added behind older ones, so no class that a user
declares can take it (`Built.lookup_helper`). So `typeof` resolves whenever its operand does.

Under an empty root the class has no dotted name, but `typeof` still puts a point before its simple
name. Nothing in the first registry is called that, and `typeof` fails with every operand.
`typeof_calls_helper_under_root` says both.
-/

namespace Dynascript

namespace Registry

variable {r r' : Registry} {root : String}

theorem Built.runs {allowed : RegistryOp → Prop} (h : Built root allowed r) :
    (bootstrap root).Runs r := by
  induction h with
  | start => exact .refl
  | step op _ _ _ hrun ih => exact .step op ih hrun

/-- No name of the runtime ends like the helper's. -/
theorem runtime_names_not_helper :
    ∀ b ∈ runtime.names, ¬typeofClass.toList <:+ b.name.toList := by
  decide

theorem names_bootstrap (hroot : root ≠ "") :
    (bootstrap root).names = runtime.names ++
      [⟨root ++ "." ++ typeofClass, 0, .typeofHelper⟩, ⟨typeofClass, 0, .typeofHelper⟩] := by
  have hspace : (ClassDecl.typeofHelper root).space.isEmpty = false := by
    simpa [ClassDecl.typeofHelper, ClassDecl.withMember, ClassDecl.withFlags,
      ClassDecl.inSpace] using hroot
  rw [bootstrap_eq, addClass, hspace]
  exact List.append_assoc ..

/-- The first registry has the helper under its dotted name. -/
theorem lookup_helper (hroot : root ≠ "") :
    (bootstrap root).lookup (root ++ "." ++ typeofClass) 0 = some .typeofHelper := by
  have hother : runtime.names.find?
      (fun b => b.name == root ++ "." ++ typeofClass && b.arity == 0) = none := by
    rw [List.find?_eq_none]
    intro b hb hname
    refine runtime_names_not_helper b hb ?_
    simp only [Bool.and_eq_true, beq_iff_eq] at hname
    rw [hname.1, String.toList_append]
    exact List.suffix_append _ _
  rw [lookup, names_bootstrap hroot, List.find?_append, hother]
  simp

theorem Built.lookup_helper {allowed : RegistryOp → Prop} (h : Built root allowed r)
    (hroot : root ≠ "") : r.lookup (root ++ "." ++ typeofClass) 0 = some .typeofHelper :=
  lookup_of_names h.runs.names (Registry.lookup_helper hroot)

theorem Built.hasMethod_helper (h : Built root RegistryOp.SparesBootstrap r) :
    r.HasMethod .typeofHelper typeofMethod true .typeofHelper .string := by
  have htable : (bootstrap root).table =
      runtime.table.add (ClassDecl.typeofHelper root).flags typeofClass root
        (.declared (ClassDecl.typeofHelper root).body) := by
    rw [bootstrap_eq, addClass_table]
    rfl
  refine ⟨[.object], TypeTable.findMember_mono h.extends_bootstrap ?_⟩
  rw [htable]
  rfl

/-- Under an empty root, the name that is looked for is none of the first registry. -/
theorem lookup_helper_empty : (bootstrap "").lookup ("." ++ typeofClass) 0 = none := by
  decide

end Registry

theorem Program.registry_eq {p : Program}
    (h : (∃ settings, p = .new settings) ∨ ∃ text, Program.ofConfig text = .ok p) :
    p.registry = .bootstrap p.settings.root := by
  rcases h with ⟨settings, rfl⟩ | ⟨text, h⟩
  · rfl
  · unfold ofConfig at h
    cases hparse : Config.parse text with
    | error e => simp [hparse, bind, Except.bind] at h
    | ok written =>
      simp only [hparse, bind, Except.bind, pure, Except.pure, Except.ok.injEq] at h
      subst h
      rfl

namespace Resolve

variable {cx : Context} {r : Registry} {loc : Location} {operand : Expr} {t : TypedExpr}

theorem typeofOf_found (hnative : cx.settings.isScript = false)
    (hlookup : r.lookup (cx.settings.root ++ "." ++ typeofClass) 0 = some .typeofHelper)
    (hmethod : r.HasMethod .typeofHelper typeofMethod true .typeofHelper .string) :
    typeofOf loc t cx r =
      .ok ⟨some (.staticCall (.value .string loc) .typeofHelper typeofMethod [t]), [], r⟩ := by
  obtain ⟨parameters, hmethod⟩ := hmethod
  have hscript : isScript cx r = .ok ⟨false, [], r⟩ := by rw [← hnative]; rfl
  have hcontext : context cx r = .ok ⟨cx, [], r⟩ := rfl
  have hsee : see (·.lookup (cx.settings.root ++ "." ++ typeofClass) 0) cx r =
      .ok ⟨some .typeofHelper, [], r⟩ := by rw [see, hlookup]
  have hask : ask (·.findMember .typeofHelper typeofMethod) cx r =
      .ok ⟨some (.typeofHelper, ⟨typeofMethod, .method parameters .string, true⟩), [], r⟩ := by
    rw [ask, hmethod]
  have hfind : findMethod loc .typeofHelper typeofMethod true cx r =
      .ok ⟨some (.typeofHelper, .string), [], r⟩ :=
    (bind_of_quiet hask).trans rfl
  rw [typeofOf, bind_of_quiet hscript]
  refine (bind_of_quiet hcontext).trans ((bind_of_quiet hsee).trans ?_)
  exact (bind_of_quiet hfind).trans rfl

theorem typeofOf_missing (hnative : cx.settings.isScript = false)
    (hlookup : r.lookup (cx.settings.root ++ "." ++ typeofClass) 0 = none) :
    typeofOf loc t cx r = .ok ⟨none,
      [.ofMessage .unknownType loc [cx.settings.root ++ "." ++ typeofClass]], r⟩ := by
  have hscript : isScript cx r = .ok ⟨false, [], r⟩ := by rw [← hnative]; rfl
  have hcontext : context cx r = .ok ⟨cx, [], r⟩ := rfl
  have hsee : see (·.lookup (cx.settings.root ++ "." ++ typeofClass) 0) cx r =
      .ok ⟨none, [], r⟩ := by rw [see, hlookup]
  rw [typeofOf, bind_of_quiet hscript]
  exact (bind_of_quiet hcontext).trans (bind_of_quiet hsee)

/-- `typeof` adds to its operand what `typeofOf` gives and files in the registry that the operand
leaves. -/
theorem typeof_run (hstrict : cx.settings.isExtended = false) {node : TypedExpr → Option TypedExpr}
    {told : Log} (h : ∀ r' t, r.Grows r' → typeofOf loc t cx r' = .ok ⟨node t, told, r'⟩)
    (site : Site) :
    resolve site (.typeof loc operand) cx r = (resolve .unknown operand cx r).map fun o =>
      ⟨o.value.bind node, o.filed ++ if o.value.isSome then told else [], o.registry⟩ := by
  have hextended : isExtended cx r = .ok ⟨false, [], r⟩ := by rw [← hstrict]; rfl
  rw [resolve, bind_of_quiet hextended]
  change (resolve .unknown operand >>= _) cx r = _
  rw [bind_run]
  cases ho : resolve .unknown operand cx r with
  | error e => rfl
  | ok o =>
    have hgrows := (resolve_settles operand .unknown cx r o ho).grows
    obtain ⟨value, filed, r'⟩ := o
    cases value with
    | none => rfl
    | some t =>
      simp only [andThen, h r' t hgrows]
      rfl

end Resolve

/-- Under any root but the empty one, `typeof` in a program of the strict dialect for the native
target resolves if and only if its operand does, to a call of the helper, and files nothing of its
own. Under the empty root it fails with every operand, unless the user has declared a class by the
very name that it looks for. -/
theorem typeof_calls_helper_under_root {p : Program}
    (hp : (∃ settings, p = .new settings) ∨ ∃ text, Program.ofConfig text = .ok p)
    (hnative : p.settings.isScript = false) (hstrict : p.settings.isExtended = false) :
    p.registry = .bootstrap p.settings.root ∧
    (p.settings.root ≠ "" → ∀ r, r.Built p.settings.root RegistryOp.SparesBootstrap →
      ∀ scopes site loc operand,
        Resolve.resolve site (.typeof loc operand) ⟨p.settings, scopes⟩ r =
          (Resolve.resolve .unknown operand ⟨p.settings, scopes⟩ r).map fun o =>
            { o with value := o.value.map fun t =>
                .staticCall (.value .string loc) .typeofHelper typeofMethod [t] }) ∧
    (p.settings.root = "" → p.registry.lookup ("." ++ typeofClass) 0 = none ∧
      ∀ r : Registry, r.lookup ("." ++ typeofClass) 0 = none → ∀ scopes site loc operand,
        Resolve.resolve site (.typeof loc operand) ⟨p.settings, scopes⟩ r =
          (Resolve.resolve .unknown operand ⟨p.settings, scopes⟩ r).map fun o =>
            ⟨none, o.filed ++ if o.value.isSome then
              [.ofMessage .unknownType loc ["." ++ typeofClass]] else [], o.registry⟩) := by
  have hregistry := Program.registry_eq hp
  refine ⟨hregistry, fun hroot r hr scopes site loc operand => ?_, fun hroot => ⟨?_, ?_⟩⟩
  · have hfound : ∀ r' t, r.Grows r' → Resolve.typeofOf loc t ⟨p.settings, scopes⟩ r' = .ok
        ⟨some (.staticCall (.value .string loc) .typeofHelper typeofMethod [t]), [], r'⟩ := by
      intro r' t hgrows
      refine Resolve.typeofOf_found hnative ?_ (hr.hasMethod_helper.grow hgrows)
      rw [hgrows.lookup, hr.lookup_helper hroot]
    rw [Resolve.typeof_run hstrict hfound]
    simp only [Option.map_eq_bind, ite_self, List.append_nil]
    rfl
  · rw [hregistry, hroot]
    exact Registry.lookup_helper_empty
  · intro r hr scopes site loc operand
    have hname : p.settings.root ++ "." ++ typeofClass = "." ++ typeofClass := by
      rw [hroot, String.empty_append]
    have hmissing : ∀ r' t, r.Grows r' → Resolve.typeofOf loc t ⟨p.settings, scopes⟩ r' = .ok
        ⟨none, [.ofMessage .unknownType loc ["." ++ typeofClass]], r'⟩ := by
      intro r' t hgrows
      rw [← hname]
      exact Resolve.typeofOf_missing hnative (by rw [hname, hgrows.lookup, hr])
    rw [Resolve.typeof_run hstrict hmissing]
    simp

/-- A class of the user's with the name and the namespace of the helper. -/
def rivalHelper : ClassDecl := (ClassDecl.ofClass typeofClass).inSpace defaultRoot

/-- `typeof 1` calls the helper next to its rival, and fails under the empty root. -/
theorem typeof_one_calls_helper :
    let one : Expr := .literal .origin (.int 1)
    let named := Program.new {}
    let unnamed := Program.new { root := "" }
    let r := named.registry.addClass rivalHelper
    named.settings.isScript = false ∧ named.settings.isExtended = false ∧
    named.settings.root ≠ "" ∧ r.Built named.settings.root RegistryOp.SparesBootstrap ∧
    Resolve.resolve .unknown (.typeof .origin one) ⟨named.settings, .fresh⟩ r =
      .ok ⟨some (.staticCall (.value .string .origin) .typeofHelper typeofMethod
        [.constant (.value .int .origin) (.int 1)]), [], r⟩ ∧
    unnamed.settings.isScript = false ∧ unnamed.settings.isExtended = false ∧
    Resolve.resolve .unknown (.typeof .origin one) ⟨unnamed.settings, .fresh⟩ unnamed.registry =
      .ok ⟨none, [.ofMessage .unknownType .origin ["._typeof_fn"]], unnamed.registry⟩ := by
  intro one named unnamed r
  have hroot : named.settings.root ≠ "" := by decide
  have hr : r.Built named.settings.root RegistryOp.SparesBootstrap :=
    .step (.declare rivalHelper) .start trivial (by decide) rfl
  obtain ⟨-, hnamed, -⟩ := typeof_calls_helper_under_root (p := named) (.inl ⟨_, rfl⟩) rfl rfl
  obtain ⟨-, -, hunnamed⟩ := typeof_calls_helper_under_root (p := unnamed) (.inl ⟨_, rfl⟩) rfl rfl
  obtain ⟨hmissing, hfails⟩ := hunnamed rfl
  refine ⟨rfl, rfl, hroot, hr, ?_, rfl, rfl, ?_⟩
  · rw [hnamed hroot r hr]
    rfl
  · rw [hfails _ hmissing]
    rfl

end Dynascript
