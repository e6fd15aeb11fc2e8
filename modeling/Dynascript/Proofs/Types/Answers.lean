import Dynascript.Proofs.Types.Renaming
import Mathlib.Data.List.Forall2

/-!
# What two registries side by side answer

Questions to the registries of a `Pairing` about types that go together (`Pairing.Handle`) : both
sides answer, and the answers go together (`Alike`). The searches follow edges that lead to
earlier types, so each has steps enough on either side, however many types the two registries
have. The name of a type is the same text on both sides (`Pairing.typeName`).
-/

namespace Dynascript

variable {α β γ δ : Type}

/-- Both computations give a value, and the values are related. -/
def Alike (rel : α → β → Prop) (x : Except Dangling α) (y : Except Dangling β) : Prop :=
  ∃ a b, x = .ok a ∧ y = .ok b ∧ rel a b

namespace Alike

variable {rel : α → β → Prop} {rel' : γ → δ → Prop}

theorem pure {a : α} {b : β} (h : rel a b) : Alike rel (Pure.pure a) (Pure.pure b) :=
  ⟨a, b, rfl, rfl, h⟩

theorem bind {x : Except Dangling α} {y : Except Dangling β} {f : α → Except Dangling γ}
    {g : β → Except Dangling δ} (h : Alike rel x y)
    (hfg : ∀ a b, rel a b → Alike rel' (f a) (g b)) : Alike rel' (x >>= f) (y >>= g) := by
  obtain ⟨a, b, rfl, rfl, hab⟩ := h
  exact hfg a b hab

theorem mapM {f : α → Except Dangling γ} {g : β → Except Dangling δ} {as : List α} {bs : List β}
    (h : List.Forall₂ rel as bs) (hfg : ∀ a b, rel a b → Alike rel' (f a) (g b)) :
    Alike (List.Forall₂ rel') (as.mapM f) (bs.mapM g) := by
  induction h with
  | nil => exact .pure .nil
  | cons hab _ ih =>
    rw [List.mapM_cons, List.mapM_cons]
    exact (hfg _ _ hab).bind fun _ _ hfirst => ih.bind fun _ _ hrest => .pure (.cons hfirst hrest)

theorem anyM {f : α → Except Dangling Bool} {g : β → Except Dangling Bool} {as : List α}
    {bs : List β} (h : List.Forall₂ rel as bs) (hfg : ∀ a b, rel a b → Alike Eq (f a) (g b)) :
    Alike Eq (as.anyM f) (bs.anyM g) := by
  induction h with
  | nil => exact .pure rfl
  | cons hab _ ih =>
    rw [List.anyM, List.anyM]
    refine (hfg _ _ hab).bind fun found _ heq => ?_
    subst heq
    cases found with
    | true => exact .pure rfl
    | false => exact ih

theorem findSomeM? {f : α → Except Dangling (Option γ)} {g : β → Except Dangling (Option δ)}
    {as : List α} {bs : List β} (h : List.Forall₂ rel as bs)
    (hfg : ∀ a b, rel a b → Alike (Option.Rel rel') (f a) (g b)) :
    Alike (Option.Rel rel') (as.findSomeM? f) (bs.findSomeM? g) := by
  induction h with
  | nil => exact .pure .none
  | cons hab _ ih =>
    rw [List.findSomeM?_cons, List.findSomeM?_cons]
    refine (hfg _ _ hab).bind fun _ _ hfound => ?_
    cases hfound with
    | some h => exact .pure (.some h)
    | none => exact ih

end Alike

namespace Pairing

variable {R R' : Registry} {w w₁ : Pairing R R'} {t t' : TypeId}

/-- Handles that go together. -/
def Handle (w : Pairing R R') (t t' : TypeId) : Prop := w.left.Has t ∧ t' = w.perm t

/-- Members whose signatures go together. -/
def Signature (w : Pairing R R') (m m' : Member) : Prop :=
  (∀ t ∈ m.handles, w.left.Has t) ∧ m' = m.rename w.perm

/-- Members that were found on types that go together. -/
def Found (w : Pairing R R') (found found' : TypeId × Member) : Prop :=
  w.Handle found.1 found'.1 ∧ w.Signature found.2 found'.2

theorem Handle.grow (hw : w.Le w₁) (h : w.Handle t t') : w₁.Handle t t' :=
  ⟨h.1.grow hw.left, h.2.trans (hw.agrees t h.1).symm⟩

/-- A first type goes together with itself. -/
theorem handle_self (h : R.Has t) : w.Handle t t :=
  ⟨h.grow w.leftMakes.grows, (w.fixes t h).symm⟩

/-- A type that every program starts with goes together with itself. -/
theorem handle_first (w : Pairing R R') (h : t.index ≤ TypeId.typeofHelper.index) :
    w.Handle t t :=
  handle_self (w.valid.has h)

theorem Handle.eq_iff {s s' : TypeId} (ht : w.Handle t t') (hs : w.Handle s s') :
    t' = s' ↔ t = s := by
  rw [ht.2, hs.2]
  exact w.perm.apply_eq_iff_eq

theorem handles_map {ts : List TypeId} (h : ∀ t ∈ ts, w.left.Has t) :
    List.Forall₂ w.Handle ts (ts.map w.perm) := by
  rw [List.forall₂_map_right_iff, List.forall₂_same]
  exact fun t ht => ⟨h t ht, rfl⟩

theorem map_of_handles {ts ts' : List TypeId} (h : List.Forall₂ w.Handle ts ts') :
    (∀ t ∈ ts, w.left.Has t) ∧ ts' = ts.map w.perm := by
  induction h with
  | nil => simp
  | cons hab _ ih =>
    obtain ⟨hhas, rfl⟩ := ih
    exact ⟨List.forall_mem_cons.2 ⟨hab.1, hhas⟩, by rw [hab.2, List.map_cons]⟩

/-! ## Entries -/

theorem entries (h : w.Handle t t') : Alike (fun e e' => w.left.table.get t = .ok e ∧
    w.right.table.get t' = .ok e' ∧ e' = e.rename w.perm) (w.left.table.get t)
    (w.right.table.get t') := by
  obtain ⟨ht, rfl⟩ := h
  obtain ⟨e, he, he'⟩ := w.get ht
  exact ⟨e, _, he, he', he, he', rfl⟩

theorem flags (h : w.Handle t t') : Alike Eq (w.left.flags t) (w.right.flags t') :=
  (entries h).bind fun e e' ⟨_, _, he⟩ => .pure (by rw [he, TypeEntry.rename])

theorem isDynamic (h : w.Handle t t') : Alike Eq (w.left.isDynamic t) (w.right.isDynamic t') :=
  (flags h).bind fun _ _ hflags => .pure (by rw [hflags])

theorem isArray (h : w.Handle t t') : Alike Eq (w.left.isArray t) (w.right.isArray t') :=
  (flags h).bind fun _ _ hflags => .pure (by rw [hflags])

theorem isDynamicClass (h : w.Handle t t') :
    Alike Eq (w.left.isDynamicClass t) (w.right.isDynamicClass t') :=
  (flags h).bind fun _ _ hflags => .pure (by rw [hflags])

theorem isDynamicCapable (h : w.Handle t t') :
    Alike Eq (w.left.isDynamicCapable t) (w.right.isDynamicCapable t') :=
  (flags h).bind fun _ _ hflags => .pure (by rw [hflags])

/-- `p` and `p'` go together and come before `t` and its partner. -/
def Earlier (w : Pairing R R') (t : TypeId) (p p' : TypeId) : Prop :=
  w.Handle p p' ∧ p.index < t.index ∧ p'.index < (w.perm t).index

/-- The edges of an entry lead to earlier types on both sides. -/
theorem edges {e : TypeEntry} (h : w.left.table.get t = .ok e) (ps : List TypeId)
    (hps : ps ⊆ e.kind.parents) : List.Forall₂ (w.Earlier t) ps (ps.map w.perm) := by
  rw [List.forall₂_map_right_iff, List.forall₂_same]
  intro p hp
  have hp' : w.perm p ∈ (e.rename w.perm).kind.parents := by
    rw [TypeEntry.rename, TypeKind.parents_rename]
    exact List.mem_map_of_mem (hps hp)
  exact ⟨⟨w.leftValid.has_parent h (hps hp), rfl⟩, w.leftValid.parents t e h p (hps hp),
    w.rightValid.parents _ _ (w.entry t e h) _ hp'⟩

theorem arrayElement (h : w.Handle t t') :
    Alike (Option.Rel fun p p' => w.Handle p.1 p'.1 ∧ p'.2 = p.2) (w.left.arrayElement t)
      (w.right.arrayElement t') := by
  refine (entries h).bind fun e e' ⟨he, _, he'⟩ => ?_
  subst he'
  have hhas (p : TypeId) (hp : p ∈ e.kind.parents) : w.left.Has p := w.leftValid.has_parent he hp
  cases hkind : e.kind with
  | array element rank =>
    have helement : w.left.Has element := hhas element (by simp [hkind, TypeKind.parents])
    simp only [TypeEntry.rename, TypeKind.rename, hkind]
    exact .pure (.some ⟨⟨helement, rfl⟩, rfl⟩)
  | builtin | declared | generic | parameter =>
    simp only [TypeEntry.rename, TypeKind.rename, hkind]
    exact .pure .none

theorem Signature.valueType {m m' : Member} (h : w.Signature m m') :
    w.Handle m.valueType m'.valueType := by
  obtain ⟨name, kind, isStatic⟩ := m
  obtain ⟨hhas, rfl⟩ := h
  cases kind <;> exact ⟨hhas _ (by simp [Member.handles, Member.valueType]), rfl⟩

theorem Signature.isField {m m' : Member} (h : w.Signature m m') : m'.isField = m.isField := by
  obtain ⟨name, kind, isStatic⟩ := m
  obtain ⟨-, rfl⟩ := h
  cases kind <;> rfl

theorem Signature.isStatic {m m' : Member} (h : w.Signature m m') : m'.isStatic = m.isStatic := by
  obtain ⟨-, rfl⟩ := h
  rfl

/-! ## Searches -/

theorem implementsWithin {iface iface' : TypeId} (hiface : w.Handle iface iface') :
    ∀ {n n' : Nat} {t t' : TypeId}, w.Handle t t' → t.index < n → t'.index < n' →
      Alike Eq (w.left.table.implementsWithin iface n t)
        (w.right.table.implementsWithin iface' n' t')
  | 0, _, _, _, _, hn, _ => by omega
  | _ + 1, 0, _, _, _, _, hn' => by omega
  | n + 1, n' + 1, t, t', h, hn, hn' => by
    rw [TypeTable.implementsWithin, TypeTable.implementsWithin]
    by_cases ht : t = iface
    · rw [if_pos ht, if_pos ((h.eq_iff hiface).2 ht)]
      exact .pure rfl
    rw [if_neg ht, if_neg (mt (h.eq_iff hiface).1 ht)]
    refine (entries h).bind fun e e' ⟨he, _, he'⟩ => ?_
    obtain ⟨_, rfl⟩ := h
    subst he'
    have ih (p p' : TypeId) (hp : w.Earlier t p p') :
        Alike Eq (w.left.table.implementsWithin iface n p)
          (w.right.table.implementsWithin iface' n' p') :=
      implementsWithin hiface hp.1 (by have := hp.2; omega) (by have := hp.2; omega)
    cases hkind : e.kind with
    | declared body =>
      have hedges := edges he (body.interfaces ++ body.base.toList)
        (by simp [hkind, TypeKind.parents])
      simp only [TypeEntry.rename, TypeKind.rename, hkind]
      simpa [ClassBody.rename, Option.toList_map] using Alike.anyM hedges ih
    | generic definition args =>
      have hedges := edges he [definition] (by simp [hkind, TypeKind.parents])
      simp only [TypeEntry.rename, TypeKind.rename, hkind]
      exact ih _ _ (List.forall₂_cons.1 hedges).1
    | builtin | array | parameter =>
      simp only [TypeEntry.rename, TypeKind.rename, hkind]
      exact .pure rfl

theorem substitute {args args' : List TypeId} (hargs : List.Forall₂ w.Handle args args')
    (h : w.Handle t t') :
    Alike w.Handle (w.left.table.substitute args t) (w.right.table.substitute args' t') := by
  refine (entries h).bind fun e e' ⟨_, _, he'⟩ => ?_
  subst he'
  obtain ⟨hhas, rfl⟩ := map_of_handles hargs
  cases hkind : e.kind with
  | parameter index =>
    simp only [TypeEntry.rename, TypeKind.rename, hkind]
    refine .pure ?_
    rw [List.getElem?_map]
    cases harg : args[index]? with
    | none => exact h
    | some arg => exact ⟨hhas arg (List.mem_of_getElem? harg), rfl⟩
  | builtin | declared | array | generic =>
    simp only [TypeEntry.rename, TypeKind.rename, hkind]
    exact .pure h

theorem instantiate {args args' : List TypeId} {m m' : Member}
    (hargs : List.Forall₂ w.Handle args args') (hm : w.Signature m m') :
    Alike w.Signature (w.left.table.instantiate args m) (w.right.table.instantiate args' m') := by
  obtain ⟨hhas, rfl⟩ := hm
  obtain ⟨name, kind, isStatic⟩ := m
  have hsub (t : TypeId) (ht : t ∈ Member.handles ⟨name, kind, isStatic⟩) :
      Alike w.Handle (w.left.table.substitute args t)
        (w.right.table.substitute args' (w.perm t)) :=
    substitute hargs ⟨hhas t ht, rfl⟩
  cases kind with
  | field type =>
    refine (hsub type (by simp [Member.handles])).bind fun type type' ht => .pure ?_
    simp [Signature, Member.rename, MemberKind.rename, Member.handles, ht.1, ht.2]
  | method parameters result =>
    have hparameters : List.Forall₂ w.Handle parameters (parameters.map w.perm) :=
      handles_map fun t ht => hhas t (by simp [Member.handles, ht])
    refine (Alike.mapM hparameters fun _ _ => substitute hargs).bind fun ps ps' hps => ?_
    refine (hsub result (by simp [Member.handles])).bind fun res res' hres => .pure ?_
    obtain ⟨hhasPs, rfl⟩ := map_of_handles hps
    refine ⟨fun t ht => ?_, by simp [Member.rename, MemberKind.rename, hres.2]⟩
    rcases List.mem_append.1 ht with ht | ht
    · exact hhasPs t ht
    · exact List.mem_singleton.1 ht ▸ hres.1
  | indexer key value =>
    refine (hsub key (by simp [Member.handles])).bind fun key key' hkey => ?_
    refine (hsub value (by simp [Member.handles])).bind fun value value' hvalue => .pure ?_
    simp [Signature, Member.rename, MemberKind.rename, Member.handles, hkey.1, hkey.2, hvalue.1,
      hvalue.2]

/-- The members that a class says itself. -/
theorem ownMember {e : TypeEntry} {body : ClassBody} (he : w.left.table.get t = .ok e)
    (hkind : e.kind = .declared body) (name : String) :
    Option.Rel w.Signature (body.member? name) ((body.rename w.perm).member? name) := by
  rw [ClassBody.member?, ClassBody.member?, ClassBody.rename, List.find?_map]
  change Option.Rel _ _ ((body.members.find? (·.name == name)).map _)
  cases hfind : body.members.find? (·.name == name) with
  | none => exact .none
  | some m =>
    refine .some ⟨fun s hs => w.leftValid.signature t e he s ?_, rfl⟩
    rw [hkind]
    exact List.mem_flatMap.2 ⟨m, List.mem_of_find?_eq_some hfind, hs⟩

theorem findMemberWithin (name : String) :
    ∀ {n n' : Nat} {t t' : TypeId}, w.Handle t t' → t.index < n → t'.index < n' →
      Alike (Option.Rel w.Found) (w.left.table.findMemberWithin name n t)
        (w.right.table.findMemberWithin name n' t')
  | 0, _, _, _, _, hn, _ => by omega
  | _ + 1, 0, _, _, _, _, hn' => by omega
  | n + 1, n' + 1, t, t', h, hn, hn' => by
    rw [TypeTable.findMemberWithin, TypeTable.findMemberWithin]
    refine (entries h).bind fun e e' hentry => ?_
    obtain ⟨he, -, he'⟩ := hentry
    have hself := h
    obtain ⟨_, rfl⟩ := h
    subst he'
    have ih (p p' : TypeId) (hp : w.Earlier t p p') :
        Alike (Option.Rel w.Found) (w.left.table.findMemberWithin name n p)
          (w.right.table.findMemberWithin name n' p') :=
      findMemberWithin name hp.1 (by have := hp.2; omega) (by have := hp.2; omega)
    cases hkind : e.kind with
    | declared body =>
      have hedges := edges he (body.base.toList ++ body.interfaces)
        (by simp [hkind, TypeKind.parents])
      have hown := ownMember he hkind name
      simp only [TypeEntry.rename, TypeKind.rename, hkind]
      cases hm : body.member? name <;> cases hm' : (body.rename w.perm).member? name
      all_goals
        rw [hm, hm'] at hown
        cases hown
      · simpa [ClassBody.rename, Option.toList_map] using Alike.findSomeM? hedges ih
      · rename_i hm
        exact .pure (.some ⟨hself, hm⟩)
    | generic definition args =>
      have hdefinition := edges he [definition] (by simp [hkind, TypeKind.parents])
      have hargs : List.Forall₂ w.Handle args (args.map w.perm) := handles_map fun p hp =>
        w.leftValid.has_parent he (by simp [hkind, TypeKind.parents, hp])
      simp only [TypeEntry.rename, TypeKind.rename, hkind]
      refine (ih _ _ (List.forall₂_cons.1 hdefinition).1).bind fun _ _ hfound => ?_
      cases hfound with
      | none => exact .pure .none
      | some hfound =>
        exact (instantiate hargs hfound.2).bind fun _ _ hm => .pure (.some ⟨hself, hm⟩)
    | builtin | array | parameter =>
      simp only [TypeEntry.rename, TypeKind.rename, hkind]
      exact .pure .none

/-- Steps enough for a search on either side. -/
theorem Handle.index_lt (h : w.Handle t t') :
    t.index < w.left.table.size + 1 ∧ t'.index < w.right.table.size + 1 := by
  obtain ⟨ht, rfl⟩ := h
  exact ⟨Nat.lt_succ_of_lt ht, Nat.lt_succ_of_lt (w.has ht)⟩

theorem implements {iface iface' : TypeId} (h : w.Handle t t') (hiface : w.Handle iface iface') :
    Alike Eq (w.left.implements t iface) (w.right.implements t' iface') :=
  implementsWithin hiface h h.index_lt.1 h.index_lt.2

theorem findMember (h : w.Handle t t') (name : String) :
    Alike (Option.Rel w.Found) (w.left.findMember t name) (w.right.findMember t' name) :=
  findMemberWithin name h h.index_lt.1 h.index_lt.2

theorem lookup (w : Pairing R R') (name : String) (arity : Nat) :
    Option.Rel w.Handle (w.left.lookup name arity) (w.right.lookup name arity) := by
  have hleft : w.left.lookup name arity = R.lookup name arity := by
    rw [Registry.lookup, w.leftMakes.grows.names, Registry.lookup]
  have hright : w.right.lookup name arity = R.lookup name arity := by
    rw [Registry.lookup, w.rightMakesFrom.grows.names, Registry.lookup]
  rw [hleft, hright]
  cases hlookup : R.lookup name arity with
  | none => exact .none
  | some t => exact .some (handle_self (w.valid.has_of_lookup hlookup))

/-! ## Names of types -/

theorem nameOfWithin :
    ∀ {n n' : Nat} {t t' : TypeId}, w.Handle t t' → t.index < n → t'.index < n' →
      Alike Eq (w.left.table.nameOfWithin n t) (w.right.table.nameOfWithin n' t')
  | 0, _, _, _, _, hn, _ => by omega
  | _ + 1, 0, _, _, _, _, hn' => by omega
  | n + 1, n' + 1, t, t', h, hn, hn' => by
    obtain ⟨ht, rfl⟩ := h
    obtain ⟨e, he, he'⟩ := w.get ht
    have ih (p p' : TypeId) (hp : w.Earlier t p p') :
        Alike Eq (w.left.table.nameOfWithin n p) (w.right.table.nameOfWithin n' p') :=
      nameOfWithin hp.1 (by have := hp.2; omega) (by have := hp.2; omega)
    rw [TypeTable.nameOfWithin, TypeTable.nameOfWithin, TypeTable.get_eq_ok.1 he,
      TypeTable.get_eq_ok.1 he']
    cases hkind : e.kind with
    | array element rank =>
      have helement := edges he [element] (by simp [hkind, TypeKind.parents])
      simp only [TypeEntry.rename, TypeKind.rename, hkind]
      exact (ih _ _ (List.forall₂_cons.1 helement).1).bind fun _ _ hname => .pure (by rw [hname])
    | generic definition args =>
      have hargs := edges he args (by simp [hkind, TypeKind.parents])
      simp only [TypeEntry.rename, TypeKind.rename, hkind]
      refine (Alike.mapM hargs ih).bind fun names names' hnames => ?_
      rw [List.forall₂_eq_eq_eq] at hnames
      exact .pure (by rw [hnames])
    | builtin | declared | parameter =>
      simp only [TypeEntry.rename, TypeKind.rename, hkind]
      exact .pure rfl

/-- The name of a type does not show its number. -/
theorem nameOf (h : w.Handle t t') : Alike Eq (w.left.nameOf t) (w.right.nameOf t') :=
  nameOfWithin h h.index_lt.1 h.index_lt.2

theorem typeName (h : w.Handle t t') : w.right.typeName t' = w.left.typeName t := by
  obtain ⟨name, name', hname, hname', hsame⟩ := nameOf h
  rw [Registry.typeName_of_nameOf hname, Registry.typeName_of_nameOf hname', hsame]

/-! ## Making types -/

theorem makeGeneric {definition definition' : TypeId} {args args' : List TypeId}
    (hd : w.Handle definition definition') (hargs : List.Forall₂ w.Handle args args') :
    ∃ (w₁ : Pairing R R') (id id' : TypeId), w.Le w₁ ∧
      w.left.makeGeneric definition args = .ok (id, w₁.left) ∧
      w.right.makeGeneric definition' args' = .ok (id', w₁.right) ∧ w₁.Handle id id' := by
  obtain ⟨hdefinition, rfl⟩ := hd
  obtain ⟨hhas, rfl⟩ := map_of_handles hargs
  obtain ⟨e, he, he'⟩ := w.get hdefinition
  obtain ⟨id, r, hr, hensures⟩ := Registry.makeGeneric_ensures args he
  obtain ⟨id', r', hr', hensures'⟩ := Registry.makeGeneric_ensures (args.map w.perm) he'
  have hparents : ∀ p ∈ definition :: args, w.left.Has p :=
    List.forall_mem_cons.2 ⟨hdefinition, hhas⟩
  have hparents' : ∀ p ∈ w.perm definition :: args.map w.perm, w.right.Has p := by
    rw [← List.map_cons, List.forall_mem_map]
    exact fun p hp => w.has (hparents p hp)
  have hmakes : R.Makes r := .step (.makeGeneric definition args) w.leftMakes trivial hparents
    (bind_eq_ok.2 ⟨_, hr, rfl⟩)
  have hmakes' : R'.Makes r' := .step (.makeGeneric (w.perm definition) (args.map w.perm))
    w.rightMakes trivial hparents' (bind_eq_ok.2 ⟨_, hr', rfl⟩)
  obtain ⟨w₁, hw, rfl, rfl, hid⟩ := w.make (.generic definition args)
    ⟨e, he, rfl, rfl, rfl⟩ hparents hmakes hmakes' hensures hensures'
  exact ⟨w₁, id, id', hw, hr, hr', hensures.has, hid.symm⟩

theorem makeArray {element element' : TypeId} (h : w.Handle element element') (rank : Nat) :
    ∃ (w₁ : Pairing R R') (id id' : TypeId), w.Le w₁ ∧
      w.left.makeArray element rank = (id, w₁.left) ∧
      w.right.makeArray element' rank = (id', w₁.right) ∧ w₁.Handle id id' := by
  obtain ⟨helement, rfl⟩ := h
  have hensures := w.left.makeArray_ensures element rank
  have hensures' := w.right.makeArray_ensures (w.perm element) rank
  have hparents : ∀ p ∈ [element], w.left.Has p := by simpa using helement
  have hparents' : ∀ p ∈ [w.perm element], w.right.Has p := by simpa using w.has helement
  have hmakes : R.Makes (w.left.makeArray element rank).2 :=
    .step (.makeArray element rank) w.leftMakes trivial hparents rfl
  have hmakes' : R'.Makes (w.right.makeArray (w.perm element) rank).2 :=
    .step (.makeArray (w.perm element) rank) w.rightMakes trivial hparents' rfl
  obtain ⟨w₁, hw, hleft, hright, hid⟩ := w.make (.array element rank)
    ⟨rfl, rfl, rfl⟩ hparents hmakes hmakes' hensures hensures'
  refine ⟨w₁, _, _, hw, ?_, ?_, ?_, hid.symm⟩
  · rw [hleft]
  · rw [hright]
  · rw [hleft]
    exact hensures.has

end Pairing

/-! ## One registry

The same of a registry on its own : a question about a type that a valid registry has is answered,
and the types in the answer are types that it has. -/

namespace Registry

variable {r : Registry} {t : TypeId}

theorem flags_answers (ht : r.Has t) : ∃ flags, r.flags t = .ok flags := by
  obtain ⟨entry, hget⟩ := ht.get
  exact ⟨entry.flags, bind_eq_ok.2 ⟨entry, hget, rfl⟩⟩

theorem isDynamic_answers (ht : r.Has t) : ∃ dynamic, r.isDynamic t = .ok dynamic := by
  obtain ⟨flags, hflags⟩ := flags_answers ht
  exact ⟨_, bind_eq_ok.2 ⟨flags, hflags, rfl⟩⟩

theorem isDynamicCapable_answers (ht : r.Has t) : ∃ keyed, r.isDynamicCapable t = .ok keyed := by
  obtain ⟨flags, hflags⟩ := flags_answers ht
  exact ⟨_, bind_eq_ok.2 ⟨flags, hflags, rfl⟩⟩

theorem arrayElement_answers (hr : r.Valid) (ht : r.Has t) :
    ∃ array, r.arrayElement t = .ok array ∧ ∀ p ∈ array, r.Has p.1 := by
  have hself : (Pairing.start hr .refl).Handle t t := Pairing.handle_self ht
  obtain ⟨array, array', harray, -, hrel⟩ := Pairing.arrayElement hself
  refine ⟨array, harray, fun p hp => ?_⟩
  rw [Option.mem_def.1 hp] at hrel
  cases hrel with
  | some h => exact h.1.1

theorem findMember_answers (hr : r.Valid) (ht : r.Has t) (name : String) :
    ∃ found, r.findMember t name = .ok found ∧ ∀ p ∈ found, r.Has p.1 := by
  have hself : (Pairing.start hr .refl).Handle t t := Pairing.handle_self ht
  obtain ⟨found, found', hfound, -, hrel⟩ := Pairing.findMember hself name
  refine ⟨found, hfound, fun p hp => ?_⟩
  rw [Option.mem_def.1 hp] at hrel
  cases hrel with
  | some h => exact h.1.1

end Registry

end Dynascript
