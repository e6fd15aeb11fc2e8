import Dynascript.Proofs.Resolve.Coupling
import Dynascript.Resolve.Creation

/-!
# The parts of resolution side by side

One lemma for each step that resolution is made of, as for one run : given parts that go together,
the step leaves results that go together, whatever numbers the two registries give to types.
-/

namespace Dynascript

/-! ## Sites -/

namespace Pairing

variable {R R' : Registry} {w w₁ : Pairing R R'}

/-- Declared types that go together. -/
inductive Declared (w : Pairing R R') : DeclaredType → DeclaredType → Prop
  | infer : Declared w .infer .infer
  | typed {t t' : TypeId} (h : w.Handle t t') : Declared w (.typed t) (.typed t')

/-- Sites that go together. -/
structure Site (w : Pairing R R') (s s' : Dynascript.Site) : Prop where
  asked : Option.Rel w.Handle s.asked s'.asked
  declared : Option.Rel w.Declared s.declared s'.declared
  assigned : Option.Rel w.Handle s.assigned s'.assigned

theorem site_unknown (w : Pairing R R') : w.Site .unknown .unknown := ⟨.none, .none, .none⟩

theorem site_ofAssigned {t t' : TypeId} (h : w.Handle t t') :
    w.Site (.ofAssigned t) (.ofAssigned t') :=
  ⟨.none, .none, .some h⟩

theorem site_ofDeclared {d d' : DeclaredType} (h : w.Declared d d') :
    w.Site (.ofDeclared d) (.ofDeclared d') :=
  ⟨.none, .some h, .none⟩

theorem dynamic (w : Pairing R R') : w.Handle .dynamic .dynamic := w.handle_first (by decide)

theorem unlessDynamic {t t' : TypeId} (h : w.Handle t t') :
    Option.Rel w.Handle (if t = .dynamic then none else some t)
      (if t' = .dynamic then none else some t') := by
  by_cases hdynamic : t = .dynamic
  · rw [if_pos hdynamic, if_pos ((h.eq_iff w.dynamic).2 hdynamic)]
    exact .none
  · rw [if_neg hdynamic, if_neg (mt (h.eq_iff w.dynamic).1 hdynamic)]
    exact .some h

theorem Site.type? {s s' : Dynascript.Site} (h : w.Site s s') :
    Option.Rel w.Handle s.type? s'.type? := by
  have hfilter (t : TypeId) :
      (some t).filter (· != .dynamic) = if t = .dynamic then none else some t := by
    by_cases h : t = .dynamic <;> simp [Option.filter, h]
  obtain ⟨asked, declared, assigned⟩ := s
  obtain ⟨asked', declared', assigned'⟩ := s'
  obtain ⟨hasked, hdeclared, hassigned⟩ := h
  cases hasked with
  | some ht => exact .some ht
  | none =>
    cases hdeclared with
    | some hd =>
      cases hd with
      | infer => exact .none
      | typed ht => exact unlessDynamic ht
    | none =>
      cases hassigned with
      | none => exact .none
      | some ht =>
        simp only [Dynascript.Site.type?, hfilter]
        exact unlessDynamic ht

theorem getD {o o' : Option TypeId} {t t' : TypeId} (h : Option.Rel w.Handle o o')
    (ht : w.Handle t t') : w.Handle (o.getD t) (o'.getD t') := by
  cases h with
  | some h => exact h
  | none => exact ht

end Pairing

namespace Resolve

variable {R R' : Registry} {w : Pairing R R'} {cx cx' : Context}

/-! ## Written types -/

theorem complainOfName_coupled (name : String) (loc : Location) :
    Coupled w (fun _ => Eq) (complainOfName name loc) (complainOfName name loc) cx cx' := by
  have hknown (arity : Nat) :
      (w.right.lookup name arity).isSome = (w.left.lookup name arity).isSome := by
    have hlookup := w.lookup name arity
    generalize w.left.lookup name arity = found at hlookup ⊢
    generalize w.right.lookup name arity = found' at hlookup ⊢
    cases hlookup <;> rfl
  have hexpected : Answers w Eq
      (see fun r => (List.range (maxTriedArity + 1)).find? fun arity =>
        (r.lookup name arity).isSome)
      (see fun r => (List.range (maxTriedArity + 1)).find? fun arity =>
        (r.lookup name arity).isSome) cx cx' :=
    answers_see (by simp only [hknown])
  refine .after hexpected fun expected _ heq => ?_
  subst heq
  cases expected with
  | some arity => exact coupled_complain _ _ _
  | none => exact coupled_complain _ _ _

theorem withRank_coupled {base base' : TypeId} (h : w.Handle base base') (rank : Nat) :
    Coupled w Pairing.Handle (withRank base rank) (withRank base' rank) cx cx' := by
  unfold withRank
  split
  · exact coupled_makeArray h rank
  · exact coupled_pure h

theorem coupled_withRank {base base' : TypeId} (h : w.Handle base base') (rank : Nat) :
    Coupled w (Maybe Pairing.Handle) (do return some (← withRank base rank))
      (do return some (← withRank base' rank)) cx cx' :=
  (withRank_coupled h rank).bind fun _ _ _ _ ht => coupled_some ht

/-- Lists of handles that go together. -/
def Handles (w : Pairing R R') (ts ts' : List TypeId) : Prop := List.Forall₂ w.Handle ts ts'

theorem writtenTypes_coupled {report : Bool} :
    ∀ {ts : List TypeName} {w : Pairing R R'},
      (∀ t ∈ ts, ∀ w : Pairing R R',
        Coupled w (Maybe Pairing.Handle) (writtenType report t) (writtenType report t) cx cx') →
      Coupled w (Maybe Handles) (writtenTypes report ts) (writtenTypes report ts) cx cx'
  | [], _, _ => coupled_some .nil
  | t :: ts, w, h => by
    rw [writtenTypes]
    exact .both (h t (by simp) w) (fun w₁ _ => writtenTypes_coupled fun t ht => h t (by simp [ht]))
      (fun _ _ _ _ => Pairing.Handle.grow) fun _ _ _ _ _ _ ht hts => coupled_some (.cons ht hts)

theorem writtenType_coupled (report : Bool) :
    ∀ (t : TypeName) (w : Pairing R R'),
      Coupled w (Maybe Pairing.Handle) (writtenType report t) (writtenType report t) cx cx'
  | .mk name args rank loc, w => by
    rw [writtenType]
    refine .after (answers_see (w.lookup name args.length)) fun definition definition' hd => ?_
    cases hd with
    | none =>
      cases report with
      | true => exact (complainOfName_coupled name loc).bind fun _ _ _ _ _ => coupled_none
      | false => exact coupled_none
    | some hd =>
      cases args with
      | nil => exact coupled_withRank hd rank
      | cons arg args =>
        refine .andThen (writtenTypes_coupled fun t ht w => writtenType_coupled report t w)
          fun w₁ _ _ hw hargs => ?_
        exact (coupled_makeGeneric (hd.grow hw) hargs).bind fun _ _ _ _ hbase =>
          coupled_withRank hbase rank
termination_by t => sizeOf t
decreasing_by
  have := List.sizeOf_lt_of_mem ht
  simp_all
  omega

theorem pathType_answers (hcx : w.View cx cx') (e : Expr) :
    Answers w (Option.Rel w.Handle) (pathType e) (pathType e) cx cx' := by
  unfold pathType
  split
  · refine (answers_localType hcx _).bind fun _ _ hlocal => ?_
    cases hlocal with
    | some => exact answers_pure .none
    | none => exact answers_see (w.lookup _ 0)
  · exact answers_pure .none

theorem exprType_coupled (hcx : w.View cx cx') (e : Expr) :
    Coupled w (Maybe Pairing.Handle) (exprType e) (exprType e) cx cx' := by
  have path (e : Expr) : Coupled w (Maybe Pairing.Handle) (pathType e) (pathType e) cx cx' := by
    obtain ⟨a, b, hx, hy, hab⟩ := pathType_answers hcx e
    exact ⟨w, a, b, [], .refl w, nofun, hx, hy, hab⟩
  unfold exprType
  split
  · exact writtenType_coupled false _ w
  · exact path _
  · exact path _
  · exact coupled_none

/-! ## The types of initializers -/

theorem concrete_coupled {default default' t t' : TypeId} (hd : w.Handle default default')
    (ht : w.Handle t t') :
    Coupled w Pairing.Handle (concrete default t) (concrete default' t') cx cx' := by
  refine .after (answers_ask (Pairing.isDynamic ht)) fun dynamic _ heq => ?_
  subst heq
  cases dynamic with
  | true => exact coupled_pure hd
  | false => exact coupled_pure ht

theorem objectType_coupled (hcx : w.View cx cx') {site site' : Site} (h : w.Site site site') :
    Coupled w Pairing.Handle (objectType site) (objectType site') cx cx' := by
  have hexpando : w.Handle .expando .expando := w.handle_first (by decide)
  refine .after (answers_isExtended hcx) fun extended _ heq => ?_
  subst heq
  cases extended with
  | true => exact concrete_coupled hexpando (Pairing.getD h.type? hexpando)
  | false => exact coupled_pure hexpando

theorem vectorType_coupled (element : Option TypeName) :
    Coupled w (Maybe Pairing.Handle) (vectorType element) (vectorType element) cx cx' := by
  cases element with
  | none => exact coupled_none
  | some element =>
    refine .andThen (writtenType_coupled false element w) fun w₁ _ _ _ ht => ?_
    have hvector : w₁.Handle .vector .vector := w₁.handle_first (by decide)
    exact (coupled_makeGeneric hvector (.cons ht .nil)).bind fun _ _ _ _ hid => coupled_some hid

theorem arrayType_coupled (hcx : w.View cx cx') (element : Option TypeName) {site site' : Site}
    (h : w.Site site site') :
    Coupled w Pairing.Handle (arrayType element site) (arrayType element site') cx cx' := by
  have harray (w : Pairing R R') : w.Handle .array .array := w.handle_first (by decide)
  refine .after (answers_isExtended hcx) fun extended _ heq => ?_
  subst heq
  cases extended with
  | false =>
    refine (vectorType_coupled element).bind fun w₁ _ _ _ hvector => ?_
    cases hvector with
    | some ht => exact coupled_pure ht
    | none => exact coupled_pure (harray w₁)
  | true =>
    have hasked := h.asked
    have htype := Pairing.getD h.type? (harray w)
    simp only [if_true]
    generalize site.asked = asked at hasked ⊢
    generalize site'.asked = asked' at hasked ⊢
    cases hasked with
    | some ht => exact concrete_coupled (harray w) ht
    | none =>
      refine (vectorType_coupled element).bind fun w₁ _ _ hw hvector => ?_
      cases hvector with
      | some ht => exact coupled_pure ht
      | none => exact concrete_coupled (harray w₁) (htype.grow hw)

/-! ## Names, members and elements -/

open TypedExpr (named children rename)

variable {target target' : TypedExpr} {args args' : List TypedExpr}

theorem constant_tree {t : TypeId} (loc : Location) (value : Constant)
    (ht : t.index ≤ TypeId.typeofHelper.index) :
    w.Tree (.constant (.value t loc) value) (.constant (.value t loc) value) := by
  have h := w.handle_first ht
  refine ⟨.node h.1 nofun nofun, ?_⟩
  rw [rename, Info.rename, Info.value, ← h.2]

theorem literal_tree (loc : Location) (value : Literal) :
    w.Tree (ofLiteral loc value) (ofLiteral loc value) := by
  cases value <;> exact constant_tree loc _ (by decide)

theorem typeRef_tree {t t' : TypeId} (loc : Location) (h : w.Handle t t') :
    w.Tree (.typeRef ⟨t, .type, loc⟩) (.typeRef ⟨t', .type, loc⟩) := by
  refine ⟨.node h.1 nofun nofun, ?_⟩
  rw [rename, Info.rename, h.2]

theorem ofName_coupled (hcx : w.View cx cx') (loc : Location) (name : String) :
    Coupled w (Maybe Pairing.Tree) (ofName loc name) (ofName loc name) cx cx' := by
  refine .after (answers_localType hcx name) fun _ _ hlocal => ?_
  cases hlocal with
  | some h =>
    refine coupled_some ⟨.node h.1 nofun nofun, ?_⟩
    rw [rename, Info.rename, h.2]
  | none =>
    refine .after (answers_see (w.lookup name 0)) fun _ _ htype => ?_
    cases htype with
    | some h => exact coupled_some (typeRef_tree loc h)
    | none => exact coupled_fail _ _ _

theorem ofTypeName_coupled (type : TypeName) :
    Coupled w (Maybe Pairing.Tree) (ofTypeName type) (ofTypeName type) cx cx' :=
  .andThen (writtenType_coupled true type w) fun _ _ _ _ h => coupled_some (typeRef_tree _ h)

theorem failNoMember_coupled {α β : Type} {rel : Pairing R R' → α → β → Prop} {t t' : TypeId}
    (loc : Location) (name : String) (h : w.Handle t t') :
    Coupled w (Maybe rel) (failNoMember loc t name) (failNoMember loc t' name) cx cx' := by
  refine .after (answers_typeName h) fun written _ heq => ?_
  subst heq
  exact coupled_fail _ _ _

theorem found_eq {owner : TypeId} {m : Member} {found : TypeId × Member}
    (h : w.Found (owner, m) found) : w.left.Has owner ∧ (∀ t ∈ m.handles, w.left.Has t) ∧
      found = (w.perm owner, m.rename w.perm) :=
  ⟨h.1.1, h.2.1, Prod.ext h.1.2 h.2.2⟩

theorem memberOf_coupled (loc : Location) (name : String) (ht : w.Tree target target') :
    Coupled w (Maybe Pairing.Tree) (memberOf loc target name) (memberOf loc target' name)
      cx cx' := by
  have late : w.Tree (.dynamicMember ⟨.dynamic, .place, loc⟩ target name)
      (.dynamicMember ⟨.dynamic, .place, loc⟩ target' name) := by
    obtain ⟨hwithin, rfl⟩ := ht
    refine ⟨.node w.dynamic.1 (List.forall_mem_nil _) (by simpa [children] using hwithin), ?_⟩
    rw [rename, Info.rename, ← w.dynamic.2]
  have otherwise : Coupled w (Maybe Pairing.Tree)
      (do
        let keyed ← if target.role == .type then pure false else ask (·.isDynamicClass target.type)
        if keyed then return some (.dynamicMember ⟨.dynamic, .place, loc⟩ target name)
        else failNoMember loc target.type name)
      (do
        let keyed ← if target.role == .type then pure false else ask (·.isDynamicClass target'.type)
        if keyed then return some (.dynamicMember ⟨.dynamic, .place, loc⟩ target' name)
        else failNoMember loc target'.type name) cx cx' := by
    refine .unless (Pairing.isDynamicClass ht.type) fun keyed => ?_
    cases keyed with
    | true => exact coupled_some late
    | false => exact failNoMember_coupled loc name ht.type
  unfold memberOf
  rw [ht.role]
  refine .unless (Pairing.isDynamic ht.type) fun dynamic => ?_
  cases dynamic with
  | true => exact coupled_some late
  | false =>
    refine .after (answers_ask (Pairing.findMember ht.type name)) fun _ _ hfound => ?_
    cases hfound with
    | none => exact otherwise
    | @some found found' hfound =>
      obtain ⟨owner, m⟩ := found
      obtain ⟨howner, hm, rfl⟩ := found_eq hfound
      obtain ⟨_, kind, isStatic⟩ := m
      refine .ite (fun _ => ?_) fun _ => otherwise
      cases kind with
      | field type =>
        have htype : w.left.Has type := hm type (by simp [Member.handles])
        have howners : ∀ t ∈ [owner], w.left.Has t := by simpa using howner
        obtain ⟨hwithin, rfl⟩ := ht
        refine .ite (fun _ => coupled_some ⟨.node htype howners (List.forall_mem_nil _), ?_⟩)
          fun _ => coupled_some ⟨.node htype howners (by simpa [children] using hwithin), ?_⟩
        · rw [rename, Info.rename]
        · rw [rename, Info.rename]
      | method | indexer => exact coupled_fail _ _ _

/-! ## Elements -/

theorem elementType_answers {t t' : TypeId} (h : w.Handle t t') :
    Answers w (Option.Rel w.Handle) (elementType t) (elementType t') cx cx' := by
  refine (answers_ask (Pairing.isDynamic h)).bind fun dynamic _ heq => ?_
  subst heq
  cases dynamic with
  | true => exact answers_pure (.some w.dynamic)
  | false =>
    refine (answers_ask (Pairing.arrayElement h)).bind fun _ _ helement => ?_
    cases helement with
    | some helement => exact answers_pure (.some helement.1)
    | none =>
      refine (answers_ask (Pairing.findMember h _)).bind fun _ _ hfound => ?_
      cases hfound with
      | some hfound => exact answers_pure (.some (Pairing.Signature.valueType hfound.2))
      | none =>
        refine (answers_ask (Pairing.isDynamicClass h)).bind fun keyed _ heq => ?_
        subst heq
        cases keyed with
        | true => exact answers_pure (.some w.dynamic)
        | false => exact answers_pure .none

theorem elementOf_coupled (loc : Location) (ht : w.Tree target target')
    (hargs : w.Trees args args') :
    Coupled w (Maybe Pairing.Tree) (elementOf loc target args) (elementOf loc target' args')
      cx cx' := by
  refine .after (elementType_answers ht.type) fun _ _ htype => ?_
  cases htype with
  | some htype =>
    obtain ⟨hwithin, rfl⟩ := ht
    obtain ⟨hargs, rfl⟩ := hargs
    refine coupled_some ⟨.node htype.1 nofun (List.forall_mem_cons.2 ⟨hwithin, hargs⟩), ?_⟩
    rw [rename, Info.rename, renameTrees_eq, htype.2]
  | none =>
    refine .after (answers_typeName ht.type) fun written _ heq => ?_
    subst heq
    exact coupled_fail _ _ _

/-! ## Calls -/

theorem callInfo_rename {t t' : TypeId} (loc : Location) (h : w.Handle t t') :
    callInfo loc t' = (callInfo loc t).rename w.perm := by
  have hvoid : t' = .void ↔ t = .void := h.eq_iff (w.handle_first (by decide))
  simp only [callInfo, hvoid, Info.rename]
  rw [h.2]

theorem findMethod_coupled {t t' : TypeId} (loc : Location) (name : String) (isStatic : Bool)
    (h : w.Handle t t') :
    Coupled w (Maybe fun w p p' => w.Handle p.1 p'.1 ∧ w.Handle p.2 p'.2)
      (findMethod loc t name isStatic) (findMethod loc t' name isStatic) cx cx' := by
  refine .after (answers_ask (Pairing.findMember h name)) fun _ _ hfound => ?_
  cases hfound with
  | none => exact failNoMember_coupled loc name h
  | @some found found' hfound =>
    obtain ⟨owner, m⟩ := found
    obtain ⟨howner, hm, rfl⟩ := found_eq hfound
    obtain ⟨_, kind, static⟩ := m
    refine .ite (fun _ => ?_) fun _ => failNoMember_coupled loc name h
    cases kind with
    | method parameters result =>
      exact coupled_some ⟨⟨howner, rfl⟩, hm result (by simp [Member.handles]), rfl⟩
    | field | indexer => exact coupled_fail _ _ _

theorem staticCall_coupled {t t' : TypeId} (loc : Location) (name : String) (h : w.Handle t t')
    (hargs : w.Trees args args') :
    Coupled w (Maybe Pairing.Tree) (staticCall loc t name args) (staticCall loc t' name args')
      cx cx' := by
  refine .andThen (findMethod_coupled loc name true h) fun w₁ p p' hw hp => ?_
  obtain ⟨hwithin, rfl⟩ := hargs.grow hw
  refine coupled_some ⟨.node hp.2.1 (by simpa [named] using hp.1.1) hwithin, ?_⟩
  rw [rename, renameTrees_eq, callInfo_rename loc hp.2, hp.1.2]

theorem instanceCall_coupled {t t' : TypeId} (loc : Location) (name : String)
    (hreceiver : w.Tree target target') (h : w.Handle t t') (hargs : w.Trees args args') :
    Coupled w (Maybe Pairing.Tree) (instanceCall loc target t name args)
      (instanceCall loc target' t' name args') cx cx' := by
  refine .andThen (findMethod_coupled loc name false h) fun w₁ p p' hw hp => ?_
  obtain ⟨hfirst, rfl⟩ := hreceiver.grow hw
  obtain ⟨hrest, rfl⟩ := hargs.grow hw
  refine coupled_some ⟨.node hp.2.1 (by simpa [named] using hp.1.1)
    (List.forall_mem_cons.2 ⟨hfirst, hrest⟩), ?_⟩
  rw [rename, renameTrees_eq, callInfo_rename loc hp.2, hp.1.2]

theorem lateCall_tree (loc : Location) (name : String) (hreceiver : w.Tree target target')
    (hargs : w.Trees args args') :
    w.Tree (lateCall loc target name args) (lateCall loc target' name args') := by
  obtain ⟨hreceiver, rfl⟩ := hreceiver
  obtain ⟨hargs, rfl⟩ := hargs
  refine ⟨.node w.dynamic.1 nofun (List.forall_mem_cons.2 ⟨hreceiver, hargs⟩), ?_⟩
  rw [lateCall, lateCall, rename, renameTrees_eq, Info.value, Info.rename, ← w.dynamic.2]

theorem scriptNew_tree {e e' : TypedExpr} (loc : Location) (h : w.Tree e e') :
    w.Tree (.scriptNew (.value .dynamic loc) e) (.scriptNew (.value .dynamic loc) e') := by
  obtain ⟨he, rfl⟩ := h
  refine ⟨.node w.dynamic.1 nofun (by simpa [children] using he), ?_⟩
  rw [rename, Info.value, Info.rename, ← w.dynamic.2]

theorem scriptDelete_tree {e e' : TypedExpr} (loc : Location) (h : w.Tree e e') :
    w.Tree (.scriptDelete (.value .dynamic loc) e) (.scriptDelete (.value .dynamic loc) e') := by
  obtain ⟨he, rfl⟩ := h
  refine ⟨.node w.dynamic.1 nofun (by simpa [children] using he), ?_⟩
  rw [rename, Info.value, Info.rename, ← w.dynamic.2]

theorem dynamicInvoke_tree (loc : Location) (hcallee : w.Tree target target')
    (hargs : w.Trees args args') :
    w.Tree (.dynamicInvoke (.value .dynamic loc) target args)
      (.dynamicInvoke (.value .dynamic loc) target' args') := by
  obtain ⟨hcallee, rfl⟩ := hcallee
  obtain ⟨hargs, rfl⟩ := hargs
  refine ⟨.node w.dynamic.1 nofun (List.forall_mem_cons.2 ⟨hcallee, hargs⟩), ?_⟩
  rw [rename, renameTrees_eq, Info.value, Info.rename, ← w.dynamic.2]

theorem methodCall_coupled (loc : Location) (name : String) (hreceiver : w.Tree target target')
    (hargs : w.Trees args args') :
    Coupled w (Maybe Pairing.Tree) (methodCall loc target name args)
      (methodCall loc target' name args') cx cx' := by
  have htype := hreceiver.type
  have late := lateCall_tree loc name hreceiver hargs
  have bound : Coupled w (Maybe Pairing.Tree) (instanceCall loc target target.type name args)
      (instanceCall loc target' target'.type name args') cx cx' :=
    instanceCall_coupled loc name hreceiver htype hargs
  unfold methodCall
  rw [hreceiver.role]
  refine .ite (fun _ => staticCall_coupled loc name htype hargs) fun _ => ?_
  refine .after (answers_ask (Pairing.isDynamic htype)) fun dynamic _ heq => ?_
  subst heq
  refine .ite (fun _ => coupled_some late) fun _ => ?_
  refine .after (answers_ask (Pairing.findMember htype name)) fun _ _ hfound => ?_
  cases hfound with
  | none =>
    refine .after (answers_ask (Pairing.isDynamicClass htype)) fun keyed _ heq => ?_
    subst heq
    exact .ite (fun _ => coupled_some late) fun _ => bound
  | @some found found' hfound =>
    simp only [hfound.2.isField]
    refine .ite (fun _ => ?_) fun _ => bound
    refine .after (answers_ask (Pairing.isDynamic hfound.2.valueType)) fun dynamic _ heq => ?_
    subst heq
    refine .ite (fun _ => ?_) fun _ => coupled_fail _ _ _
    refine .andThen (memberOf_coupled loc name hreceiver) fun w₁ _ _ hw hfield => ?_
    exact coupled_some (dynamicInvoke_tree loc hfield (hargs.grow hw))

theorem invoke_coupled (loc : Location) (source : Expr) (hcallee : w.Tree target target')
    (hargs : w.Trees args args') :
    Coupled w (Maybe Pairing.Tree) (invoke loc source target args)
      (invoke loc source target' args') cx cx' := by
  unfold invoke
  rw [hcallee.role]
  refine .unless (Pairing.isDynamic hcallee.type) fun dynamic => ?_
  exact .ite (fun _ => coupled_some (dynamicInvoke_tree loc hcallee hargs))
    fun _ => coupled_fail _ _ _

/-! ## Construction -/

theorem checkConstructible_coupled {t t' : TypeId} (loc : Location) (h : w.Handle t t') :
    Coupled w (fun _ => Eq) (checkConstructible loc t) (checkConstructible loc t') cx cx' := by
  refine .after (answers_ask (Pairing.flags h)) fun flags _ heq => ?_
  subst heq
  refine .ite (fun _ => ?_) fun _ => coupled_pure rfl
  refine .after (answers_typeName h) fun written _ heq => ?_
  subst heq
  exact (coupled_complain _ _ _).bind fun _ _ _ _ _ => coupled_pure rfl

theorem construct_coupled {t t' : TypeId} (loc : Location) (h : w.Handle t t')
    (hargs : w.Trees args args') :
    Coupled w (Maybe Pairing.Tree) (construct loc t args) (construct loc t' args') cx cx' := by
  refine (checkConstructible_coupled loc h).bind fun w₁ accepted _ hw heq => ?_
  subst heq
  refine .ite (fun _ => ?_) fun _ => coupled_none
  obtain ⟨htype, rfl⟩ := h.grow hw
  obtain ⟨hwithin, rfl⟩ := hargs.grow hw
  refine coupled_some ⟨.node htype nofun hwithin, ?_⟩
  rw [rename, renameTrees_eq, Info.rename, Info.value, Info.value]

theorem castTo_tree {t t' : TypeId} (h : w.Handle t t') (ht : w.Tree target target') :
    w.Tree (castTo t target) (castTo t' target') := by
  obtain ⟨hwithin, rfl⟩ := ht
  refine ⟨.node h.1 nofun (by simpa [castTo, children] using hwithin), ?_⟩
  rw [castTo, castTo, rename, TypedExpr.loc_rename, Info.rename, Info.value, Info.value, h.2]

theorem newOf_coupled (loc : Location) (source : Expr) (ht : w.Tree target target')
    (hargs : w.Trees args args') :
    Coupled w (Maybe Pairing.Tree) (newOf loc source target args) (newOf loc source target' args')
      cx cx' := by
  unfold newOf
  rw [ht.role]
  refine .ite (fun _ => construct_coupled loc ht.type hargs) fun _ => ?_
  refine .after (answers_ask (Pairing.isDynamic ht.type)) fun dynamic _ heq => ?_
  subst heq
  refine .ite (fun _ => ?_) fun _ => coupled_fail _ _ _
  obtain ⟨hwithin, rfl⟩ := ht
  obtain ⟨hargs, rfl⟩ := hargs
  refine coupled_some ⟨.node w.dynamic.1 nofun (List.forall_mem_cons.2 ⟨hwithin, hargs⟩), ?_⟩
  rw [rename, renameTrees_eq, Info.value, Info.rename, ← w.dynamic.2]

theorem newElementType_coupled (hcx : w.View cx cx') (target : Expr) :
    Coupled w (Maybe Pairing.Handle) (newElementType target) (newElementType target) cx cx' := by
  unfold newElementType
  split
  · exact writtenType_coupled true _ w
  · refine (exprType_coupled hcx target).bind fun w₁ _ _ hw htype => ?_
    cases htype with
    | some h => exact coupled_some h
    | none =>
      have failed (unknown : Bool) : Coupled w₁ (Maybe Pairing.Handle)
          (if unknown then fail .unknownType target.loc [target.display]
            else fail .valueNotType target.loc [target.display])
          (if unknown then fail .unknownType target.loc [target.display]
            else fail .valueNotType target.loc [target.display]) cx cx' :=
        .ite (fun _ => coupled_fail _ _ _) fun _ => coupled_fail _ _ _
      cases target.path? with
      | none => exact failed false
      | some path =>
        refine .after (answers_localType (hcx.grow hw) _) fun _ _ hlocal => ?_
        cases hlocal with
        | some => exact failed false
        | none => exact failed true

theorem checkNewArray_coupled (hcx : w.View cx cx') (loc : Location) (target : Expr)
    (args : List Expr) :
    Coupled w (fun _ => Eq) (checkNewArray loc target args) (checkNewArray loc target args)
      cx cx' := by
  have refuse (message : Message) : Coupled w (fun _ => Eq)
      (do complain message loc []; return false) (do complain message loc []; return false)
      cx cx' :=
    (coupled_complain _ _ _).bind fun _ _ _ _ _ => coupled_pure rfl
  refine .after (answers_isExtended hcx) fun extended _ heq => ?_
  subst heq
  refine .ite (fun _ => refuse _) fun _ => ?_
  split
  · exact refuse _
  · exact .ite (fun _ => refuse _) fun _ => coupled_pure rfl

theorem newArray_coupled {t t' : TypeId} (loc : Location) (h : w.Handle t t')
    (hdimensions : w.Trees args args') :
    Coupled w (Maybe Pairing.Tree) (newArray loc t args) (newArray loc t' args') cx cx' := by
  have hlength : args'.length = args.length := by rw [hdimensions.2, List.length_map]
  unfold newArray
  rw [hlength]
  refine (coupled_makeArray h args.length).bind fun w₁ _ _ hw htype => ?_
  obtain ⟨helement, rfl⟩ := h.grow hw
  obtain ⟨hwithin, rfl⟩ := hdimensions.grow hw
  refine coupled_some ⟨.node htype.1 (by simpa [named] using helement) hwithin, ?_⟩
  rw [rename, renameTrees_eq, Info.rename, Info.value, Info.value, htype.2]

/-! ## Initializers -/

theorem checkFields_coupled {t t' : TypeId} :
    ∀ {fields : List Field} {w : Pairing R R'}, w.Handle t t' →
      Coupled w (fun _ => Eq) (checkFields t fields) (checkFields t' fields) cx cx'
  | [], _, _ => coupled_pure rfl
  | .mk name loc value :: rest, w, h => by
    have goOn (known : Bool) (w₁ : Pairing R R') (hw : w.Le w₁) : Coupled w₁ (fun _ => Eq)
        (do let restKnown ← checkFields t rest; return known && restKnown)
        (do let restKnown ← checkFields t' rest; return known && restKnown) cx cx' :=
      (checkFields_coupled (h.grow hw)).bind fun _ _ _ _ heq => coupled_pure (by rw [heq])
    have check (known : Bool) : Coupled w (fun _ => Eq)
        (do
          if !known then complain .noSuchMember loc [← typeName t, name]
          let restKnown ← checkFields t rest
          return known && restKnown)
        (do
          if !known then complain .noSuchMember loc [← typeName t', name]
          let restKnown ← checkFields t' rest
          return known && restKnown) cx cx' := by
      refine .ite (fun _ => ?_) fun _ => goOn known w (.refl w)
      refine .after (answers_typeName h) fun written _ heq => ?_
      subst heq
      exact (coupled_complain _ _ _).bind fun w₁ _ _ hw _ => goOn known w₁ hw
    rw [checkFields, checkFields]
    refine .after (answers_ask (Pairing.findMember h name)) fun _ _ hfound => ?_
    cases hfound with
    | none =>
      simp only [pure_bind]
      exact check false
    | some hfound =>
      simp only [pure_bind, hfound.2.isStatic, hfound.2.isField]
      exact check _

theorem objectOf_coupled {t t' : TypeId} (hcx : w.View cx cx') (loc : Location)
    (fields : List Field) {properties properties' : List Property} (h : w.Handle t t')
    (hproperties : w.Properties properties properties') :
    Coupled w (Maybe Pairing.Tree) (objectOf loc t fields properties)
      (objectOf loc t' fields properties') cx cx' := by
  refine .after (answers_isScript hcx) fun script _ heq => ?_
  subst heq
  refine .ite (fun _ => ?_) fun _ => ?_
  · obtain ⟨hvalues, rfl⟩ := hproperties
    refine coupled_some ⟨.node h.1 (List.forall_mem_nil _) (by simpa [children] using hvalues), ?_⟩
    rw [rename, renameProperties_eq, Info.rename, Info.value, Info.value, h.2]
  · refine (checkConstructible_coupled loc h).bind fun w₁ constructible _ hw heq => ?_
    subst heq
    refine .ite (fun _ => ?_) fun _ => coupled_none
    have filled (accepted : Bool) (w₂ : Pairing R R') (hw : w.Le w₂) :
        Coupled w₂ (Maybe Pairing.Tree)
          (if accepted then
            pure (some (.newWith (.value t loc) [] (properties.map fun p => .named p.name p.value)))
            else pure none)
          (if accepted then
            pure (some (.newWith (.value t' loc) []
              (properties'.map fun p => .named p.name p.value)))
            else pure none) cx cx' := by
      refine .ite (fun _ => ?_) fun _ => coupled_none
      obtain ⟨htype, rfl⟩ := h.grow hw
      obtain ⟨hvalues, rfl⟩ := hproperties.grow hw
      refine coupled_some ⟨.node htype (List.forall_mem_nil _) ?_, ?_⟩
      · simpa [children, Function.comp_def, Initializer.value] using hvalues
      · simp [rename, Info.rename, Info.value, Function.comp_def, Initializer.rename,
          Property.rename, Property.name, Property.value]
    refine .after (answers_ask (Pairing.isDynamicCapable (h.grow hw))) fun keyed _ heq => ?_
    subst heq
    cases keyed with
    | true =>
      simp only [pure_bind, if_true]
      exact filled true w₁ hw
    | false =>
      refine (checkFields_coupled (h.grow hw)).bind fun w₂ accepted _ hw' heq => ?_
      subst heq
      exact filled accepted w₂ (hw.trans hw')

theorem lengthConstant_tree (loc : Location) (n : Nat) :
    w.Tree (lengthConstant loc n) (lengthConstant loc n) :=
  constant_tree loc _ (by decide)

theorem arrayOf_coupled {t t' : TypeId} (hcx : w.View cx cx') (loc : Location)
    (h : w.Handle t t') (helements : w.Trees args args') :
    Coupled w (Maybe Pairing.Tree) (arrayOf loc t args) (arrayOf loc t' args') cx cx' := by
  refine .after (answers_isScript hcx) fun script _ heq => ?_
  subst heq
  refine .ite (fun _ => ?_) fun _ => ?_
  · obtain ⟨hwithin, rfl⟩ := helements
    refine coupled_some ⟨.node h.1 (List.forall_mem_nil _) hwithin, ?_⟩
    rw [rename, renameTrees_eq, Info.rename, Info.value, Info.value, h.2]
  · refine .after (answers_ask (Pairing.arrayElement h)) fun _ _ hitem => ?_
    cases hitem with
    | @some item item' hitem =>
      obtain ⟨element, rank⟩ := item
      obtain ⟨element', rank'⟩ := item'
      obtain ⟨helement, hrank⟩ := hitem
      simp only at helement hrank
      subst hrank
      refine .ite (fun _ => ?_) fun _ => ?_
      · obtain ⟨hwithin, rfl⟩ := helements
        obtain ⟨hlength, hlength'⟩ := lengthConstant_tree (w := w) loc args.length
        refine coupled_some ⟨.node h.1 (by simpa [named] using helement.1)
          (List.forall_mem_cons.2 ⟨hlength, hwithin⟩), ?_⟩
        rw [rename, renameTrees_eq, renameTrees_eq, List.length_map, List.map_cons, ← hlength',
          Info.rename, Info.value, Info.value, h.2, helement.2, List.map_nil]
      · refine .after (answers_typeName h) fun written _ heq => ?_
        subst heq
        exact coupled_fail _ _ _
    | none =>
      refine (checkConstructible_coupled loc h).bind fun w₁ accepted _ hw heq => ?_
      subst heq
      refine .ite (fun _ => ?_) fun _ => coupled_none
      obtain ⟨htype, rfl⟩ := h.grow hw
      obtain ⟨hwithin, rfl⟩ := helements.grow hw
      refine coupled_some ⟨.node htype (List.forall_mem_nil _) ?_, ?_⟩
      · simpa [children, Function.comp_def, Initializer.value] using hwithin
      · simp [rename, Info.rename, Info.value, Function.comp_def, Initializer.rename]

/-! ## Operators -/

theorem deleteOf_coupled {key key' : TypedExpr} (loc : Location) (indexed : Bool)
    (ht : w.Tree target target') (hkey : w.Tree key key') :
    Coupled w (Maybe Pairing.Tree) (deleteOf loc target key indexed)
      (deleteOf loc target' key' indexed) cx cx' := by
  have delete : Coupled w (Maybe Pairing.Tree)
      (do
        if ← ask (·.isDynamicCapable target.type) then
          instanceCall loc (castTo .dynamicClass target) .dynamicClass deleteMethod [key]
        else fail .deleteOnFixedType loc [])
      (do
        if ← ask (·.isDynamicCapable target'.type) then
          instanceCall loc (castTo .dynamicClass target') .dynamicClass deleteMethod [key']
        else fail .deleteOnFixedType loc []) cx cx' := by
    have hclass : w.Handle .dynamicClass .dynamicClass := w.handle_first (by decide)
    refine .after (answers_ask (Pairing.isDynamicCapable ht.type)) fun keyed _ heq => ?_
    subst heq
    exact .ite (fun _ => instanceCall_coupled loc _ (castTo_tree hclass ht) hclass
      (.cons hkey (w.trees_nil))) fun _ => coupled_fail _ _ _
  unfold deleteOf
  cases indexed with
  | false =>
    simp only [Bool.false_eq_true, if_false, pure_bind]
    exact delete
  | true =>
    refine .after (answers_ask (Pairing.isArray ht.type)) fun onArray _ heq => ?_
    subst heq
    exact .ite (fun _ => coupled_fail _ _ _) fun _ => delete

theorem typeofOf_coupled (hcx : w.View cx cx') (loc : Location) (ht : w.Tree target target') :
    Coupled w (Maybe Pairing.Tree) (typeofOf loc target) (typeofOf loc target') cx cx' := by
  refine .after (answers_isScript hcx) fun script _ heq => ?_
  subst heq
  refine .ite (fun _ => ?_) fun _ => ?_
  · obtain ⟨hwithin, rfl⟩ := ht
    refine coupled_some ⟨.node w.dynamic.1 nofun (by simpa [children] using hwithin), ?_⟩
    rw [rename, Info.value, Info.rename, ← w.dynamic.2]
  · refine .after (answers_root hcx) fun c c' hsettings => ?_
    rw [hsettings]
    refine .after (answers_see (w.lookup _ 0)) fun _ _ hlookup => ?_
    cases hlookup with
    | some h => exact staticCall_coupled loc _ h (.cons ht w.trees_nil)
    | none => exact coupled_fail _ _ _

theorem inOf_coupled {key key' : TypedExpr} (hcx : w.View cx cx') (loc : Location)
    (hkey : w.Tree key key') (ht : w.Tree target target') :
    Coupled w (Maybe Pairing.Tree) (inOf loc key target) (inOf loc key' target') cx cx' := by
  refine .after (answers_isScript hcx) fun script _ heq => ?_
  subst heq
  refine .ite (fun _ => ?_) fun _ => ?_
  · have hboolean : w.Handle .boolean .boolean := w.handle_first (by decide)
    obtain ⟨hkey, rfl⟩ := hkey
    obtain ⟨hwithin, rfl⟩ := ht
    refine coupled_some ⟨.node hboolean.1 nofun (by simpa [children] using ⟨hkey, hwithin⟩), ?_⟩
    rw [rename, Info.value, Info.rename, ← hboolean.2]
  · refine .after (answers_ask (Pairing.isDynamic ht.type)) fun dynamic _ heq => ?_
    subst heq
    refine .ite (fun _ => ?_) fun _ => ?_
    · have hdefinition : w.Handle .dictionaryGeneric .dictionaryGeneric :=
        w.handle_first (by decide)
      have hstring : w.Handle .string .string := w.handle_first (by decide)
      have hobject : w.Handle .object .object := w.handle_first (by decide)
      refine (coupled_makeGeneric hdefinition (.cons hstring (.cons hobject .nil))).bind
        fun w₁ _ _ hw hdictionary => ?_
      exact instanceCall_coupled loc _ (castTo_tree hdictionary (ht.grow hw)) hdictionary
        (.cons (hkey.grow hw) w₁.trees_nil)
    · have hdictionary : w.Handle .dictionary .dictionary := w.handle_first (by decide)
      refine .after (answers_ask (Pairing.implements ht.type hdictionary)) fun keyed _ heq => ?_
      subst heq
      exact instanceCall_coupled loc _ ht ht.type (.cons hkey w.trees_nil)

/-! ## Literals of the dynamic language -/

theorem undefinedOf_coupled (hcx : w.View cx cx') (loc : Location) :
    Coupled w Pairing.Tree (undefinedOf loc) (undefinedOf loc) cx cx' := by
  refine .after (answers_isScript hcx) fun script _ heq => ?_
  subst heq
  refine .ite (fun _ => ?_) fun _ => ?_
  · refine coupled_pure ⟨.node w.dynamic.1 (List.forall_mem_nil _) (List.forall_mem_nil _), ?_⟩
    rw [rename, Info.value, Info.rename, ← w.dynamic.2]
  · have hundefined : w.Handle .undefined .undefined := w.handle_first (by decide)
    refine coupled_pure ⟨.node hundefined.1 (by simpa [named] using hundefined.1)
      (List.forall_mem_nil _), ?_⟩
    rw [rename, Info.value, Info.rename, ← hundefined.2]

theorem stringConstant_tree (loc : Location) (s : String) :
    w.Tree (stringConstant loc s) (stringConstant loc s) :=
  constant_tree loc _ (by decide)

theorem regexOf_coupled (hcx : w.View cx cx') (loc : Location) (value : RegexLiteral) :
    Coupled w (Maybe Pairing.Tree) (regexOf loc value) (regexOf loc value) cx cx' := by
  refine .after (answers_isScript hcx) fun script _ heq => ?_
  subst heq
  refine .ite (fun _ => coupled_some (constant_tree loc _ (by decide))) fun _ => ?_
  exact construct_coupled loc (w.handle_first (by decide))
    (.cons (stringConstant_tree loc _) (.cons (stringConstant_tree loc _) w.trees_nil))

theorem xmlOf_coupled (hcx : w.View cx cx') (loc : Location) (value : XmlLiteral) :
    Coupled w (Maybe Pairing.Tree) (xmlOf loc value) (xmlOf loc value) cx cx' := by
  refine .after (answers_isScript hcx) fun script _ heq => ?_
  subst heq
  refine .ite (fun _ => coupled_some (constant_tree loc _ (by decide))) fun _ => ?_
  exact construct_coupled loc (w.handle_first (by decide))
    (.cons (stringConstant_tree loc _) w.trees_nil)

end Resolve

end Dynascript
