import Dynascript.Proofs.Resolve.Filing

/-!
# One failure does not bring on others

A variable is declared by its declaration, whatever becomes of that : its type is the one that is
written, else that of its value, else the dynamic one (`TypesVariable`). So once the declaration of
a name is behind, no statement of the list says that the name is unknown, however deep in blocks it
is used. What is filed after a declaration is filed by a run of its own, from the scopes after the
declaration (`statements_append`), and everything that a run files is a complaint by its first
scopes (`statements_complain`). A complaint of an unknown name shows the name (`Complaint.unknown`),
so it can be read off the text that the name is none of the scopes'.
-/

namespace Dynascript

/-- No other message has the code of this one. -/
theorem Message.eq_unknownName {message : Message} (h : message.code = unknownName.code) :
    message = unknownName := by
  cases message <;> first | rfl | exact absurd h (by decide)

/-- The text shows the name. -/
theorem Message.fill_unknownName_injective :
    Function.Injective fun name => Template.fill unknownName.template [name] := by
  intro name other h
  have hfill (name : String) : Template.fillFrom 0 [name] unknownName.template.toList =
      "The name '".toList ++ (name.toList ++ "' does not exist in the current context.".toList) :=
    rfl
  simp only [Template.fill, hfill, String.ofList_inj] at h
  exact String.toList_inj.1 (List.append_cancel_right (List.append_cancel_left h))

namespace Resolve

variable {cx : Context} {scopes : Scopes} {name : String} {loc : Location}

theorem Complaint.unknown (h : Complaint scopes (.ofMessage .unknownName loc [name])) :
    scopes.lookup name = none := by
  obtain ⟨message, place, strings, heq, hunknown⟩ := h
  obtain rfl := Message.eq_unknownName (congrArg Diagnostic.code heq).symm
  obtain ⟨other, rfl, hlookup⟩ := hunknown rfl
  rwa [Message.fill_unknownName_injective (congrArg Diagnostic.text heq)]

theorem statements_not_unknown (h : scopes.lookup name ≠ none) (body : List Stmt) (r : Registry) :
    Always (statements scopes body) cx r fun o =>
      ∀ loc, .ofMessage .unknownName loc [name] ∉ o.filed :=
  (statements_complain body scopes r).mono fun _ ho _ hd => h (ho _ hd).unknown

/-- A list is run part by part. -/
theorem statements_append (later : List Stmt) : ∀ (before : List Stmt) (scopes : Scopes)
    (r : Registry), Always (statements scopes (before ++ later)) cx r fun o => ∃ o₁ o₂,
      statements scopes before cx r = .ok o₁ ∧
        statements o₁.value.2 later cx o₁.registry = .ok o₂ ∧ o.value.2 = o₂.value.2 ∧
        o.filed = o₁.filed ++ o₂.filed
  | [], scopes, r => fun o ho => ⟨⟨(some [], scopes), [], r⟩, o, rfl, ho, rfl, rfl⟩
  | s :: before, scopes, r => by
    rw [List.cons_append, statements]
    refine always_bind fun o hs => ?_
    refine always_bind ((statements_append later before o.value.2 o.registry).mono ?_)
    rintro o' ⟨o₁, o₂, h₁, h₂, hafter, hfiled⟩
    exact always_pure ⟨_, o₂, statements_cons hs h₁, h₂, hafter, by simp [hfiled]⟩

/-- The declaration gives its variable this type : the one that is written, else the type of the
value, else the dynamic one, where a part that fails counts as missing. -/
def TypesVariable (cx : Context) (r : Registry) (d : Declaration) (type : TypeId) : Prop :=
  ∃ written value, declarationType d cx r = .ok written ∧
    declarationValue (.ofDeclared (declaredType written.value)) d cx written.registry =
      .ok value ∧
    type = variableType (declaredType written.value) value.value

theorem declaration_types (cx : Context) (r : Registry) (loc : Location) (d : Declaration) :
    Always (declaration loc d) cx r fun o => TypesVariable cx r d o.value.2 := by
  rw [declaration]
  refine always_bind fun written hwritten => ?_
  exact always_bind fun value hvalue => always_pure ⟨written, value, hwritten, hvalue, rfl⟩

theorem statements_declare (scopes : Scopes) (r : Registry) (loc : Location) (d : Declaration) :
    Always (statements scopes [.declare loc d]) cx r fun o => ∃ type,
      TypesVariable { cx with scopes } r d type ∧ o.value.2 = scopes.declare d.name type := by
  have hstatement : Always (statement scopes (.declare loc d)) cx r fun o => ∃ type,
      TypesVariable { cx with scopes } r d type ∧ o.value.2 = scopes.declare d.name type := by
    rw [statement]
    refine always_bind fun o ho => always_pure ⟨o.value.2, ?_, rfl⟩
    exact declaration_types _ r loc d o ho
  rw [statements]
  exact always_bind (hstatement.mono fun o ho => always_pure_bind (always_pure ho))

/-- Whatever fails : a statement that is no declaration leaves the scopes alone. A list adds to the
innermost scope one binding for each declaration that stands in it, the newest first, and leaves
the outer scopes alone. The binding has the type that the declaration gives to its variable, in the
scopes and the registry that the statements before it leave, and after the list the name has that
type unless a later statement of the list declares it anew. And what comes after a declaration never
files that its name is unknown. -/
theorem declared_names_stay_known (cx : Context) (scopes : Scopes) (r : Registry) :
    (∀ s o, s.declared? = none → statement scopes s cx r = .ok o → o.value.2 = scopes) ∧
      ∀ body o, statements scopes body cx r = .ok o →
        (∃ bindings : Scope, bindings.map Prod.fst = (body.filterMap Stmt.declared?).reverse ∧
          o.value.2.inner = bindings ++ scopes.inner ∧ o.value.2.outer = scopes.outer) ∧
        ∀ before loc d later, body = before ++ .declare loc d :: later → ∃ o₀ type o₁ o₂,
          statements scopes before cx r = .ok o₀ ∧
          TypesVariable { cx with scopes := o₀.value.2 } o₀.registry d type ∧
          statements scopes (before ++ [.declare loc d]) cx r = .ok o₁ ∧
          o₁.value.2 = o₀.value.2.declare d.name type ∧
          statements o₁.value.2 later cx o₁.registry = .ok o₂ ∧
          (d.name ∉ later.filterMap Stmt.declared? → o.value.2.lookup d.name = some type) ∧
          o.filed = o₁.filed ++ o₂.filed ∧
          ∀ place, .ofMessage .unknownName place [d.name] ∉ o₂.filed := by
  refine ⟨fun s o hs ho => ?_, fun body o ho => ⟨?_, ?_⟩⟩
  · obtain ⟨bindings, hnames, hscopes⟩ := statement_extends s scopes cx r o ho
    rw [hs] at hnames
    rw [hscopes, List.map_eq_nil_iff.1 hnames, Scopes.extend_nil]
  · obtain ⟨bindings, hnames, hscopes⟩ := statements_extend body scopes cx r o ho
    exact ⟨bindings, hnames, by rw [hscopes, Scopes.extend], by rw [hscopes, Scopes.extend]⟩
  · rintro before loc d later rfl
    rw [List.append_cons] at ho
    obtain ⟨o₁, o₂, h₁, h₂, hafter, hfiled⟩ := statements_append later _ scopes r o ho
    obtain ⟨o₀, o', h₀, h', hafter₁, -⟩ := statements_append [.declare loc d] before scopes r o₁ h₁
    obtain ⟨type, htype, hdeclared⟩ := statements_declare o₀.value.2 o₀.registry loc d o' h'
    have hscopes : o₁.value.2 = o₀.value.2.declare d.name type := hafter₁.trans hdeclared
    have hlookup : o₁.value.2.lookup d.name = some type := by
      simp [hscopes, Scopes.lookup, Scopes.declare]
    have hknown : o₁.value.2.lookup d.name ≠ none := by simp [hlookup]
    refine ⟨o₀, type, o₁, o₂, h₀, htype, h₁, hscopes, h₂, fun hlater => ?_, hfiled,
      statements_not_unknown hknown later _ o₂ h₂⟩
    obtain ⟨bindings, hnames, hextend⟩ := statements_extend later _ cx _ o₂ h₂
    rw [hafter, hextend, Scopes.lookup_extend_of_notMem (by simpa [hnames] using hlater), hlookup]

/-- A declaration whose type and value are both unknown declares its variable. -/
theorem declare_unknown {r : Registry} (htype : ∀ arity, r.lookup "T" arity = none)
    (hy : r.lookup "y" 0 = none) :
    statement .fresh (.declare .origin
        ⟨"x", some (.mk "T" [] 0 .origin), some (.name .origin "y"), .origin⟩) ⟨{}, .fresh⟩ r =
      .ok ⟨(none, ⟨[("x", .dynamic)], []⟩), [.ofMessage .unknownType .origin ["T"],
        .ofMessage .unknownName .origin ["y"]], r⟩ := by
  have hwritten : writtenType true (.mk "T" [] 0 .origin) ⟨{}, .fresh⟩ r =
      .ok ⟨none, [.ofMessage .unknownType .origin ["T"]], r⟩ := by
    simp [writtenType, complainOfName, bind_run, see, complain, pure, Resolve.pure, htype,
      maxTriedArity, List.range, List.range.loop]
  have hlocal : Scopes.fresh.lookup "y" = none := rfl
  simp only [statement, under, declaration, declarationType, declarationValue, resolve, bind_run,
    pure, Resolve.pure, hwritten, ofName_unknown hlocal hy]
  rfl

/-- That declaration, and a block after it that uses the variable and then an unknown name. -/
theorem failed_declaration_declares :
    let R := Registry.bootstrap defaultRoot
    let declaration : Declaration :=
      ⟨"x", some (.mk "T" [] 0 .origin), some (.name .origin "y"), .origin⟩
    let block : Stmt := .block .origin
      [.nonAssign .origin (.name .origin "x"), .nonAssign .origin (.name .origin "z")]
    ∃ o o₁ o₂,
      statements .fresh [.declare .origin declaration, block] ⟨{}, .fresh⟩ R = .ok o ∧
      o.value = (none, ⟨[("x", .dynamic)], []⟩) ∧
      o.filed = [.ofMessage .unknownType .origin ["T"],
        .ofMessage .unknownName .origin ["y"], .ofMessage .unknownName .origin ["z"]] ∧
      statements .fresh [.declare .origin declaration] ⟨{}, .fresh⟩ R = .ok o₁ ∧
      statements o₁.value.2 [block] ⟨{}, .fresh⟩ o₁.registry = .ok o₂ ∧
      o.filed = o₁.filed ++ o₂.filed ∧ .ofMessage .unknownName .origin ["x"] ∉ o₂.filed := by
  intro R declaration block
  have hnames : ∀ b ∈ R.names, b.name ≠ "T" := by decide
  have htype (arity : Nat) : R.lookup "T" arity = none := by
    rw [Registry.lookup, Option.map_eq_none_iff, List.find?_eq_none]
    intro b hb
    simp [hnames b hb]
  have hy : R.lookup "y" 0 = none := by decide
  have hblock : statement ⟨[("x", .dynamic)], []⟩ block ⟨{}, .fresh⟩ R =
      .ok ⟨(none, ⟨[("x", .dynamic)], []⟩), [.ofMessage .unknownName .origin ["z"]], R⟩ := by
    simp only [block, statement, statements, under, resolve, bind_run]
    rfl
  have ho : statements .fresh [.declare .origin declaration, block] ⟨{}, .fresh⟩ R = .ok _ :=
    statements_cons (declare_unknown htype hy) (statements_cons hblock rfl)
  obtain ⟨-, lists⟩ := declared_names_stay_known ⟨{}, .fresh⟩ .fresh R
  obtain ⟨-, -, o₁, o₂, -, -, h₁, -, h₂, -, hfiled, hx⟩ :=
    (lists _ _ ho).2 [] .origin declaration [block] rfl
  exact ⟨_, o₁, o₂, ho, rfl, rfl, h₁, h₂, hfiled, hx .origin⟩

end Resolve

end Dynascript
