import Dynascript.Proofs.Types.Lineage

/-!
# Putting in type arguments

A member of a generic instance has the arguments put in for the type parameters of its signature.
They are put in for the types that the signature names, and not inside of them : `T0` becomes the
argument, and the array `T0[]` stays as it is.

`Registry.Mentions` says that a parameter occurs in a type at some depth, `Registry.Closed` that
none does, and `Registry.Nests` that one occurs inside a type that is no parameter itself. What a
type mentions once arguments are put in is told by `mentions_substitute`; so a closed argument
list leaves a type closed if and only if it nests no parameter (`closed_substitute_iff`).

Members are inherited through instances that may be applied to parameters themselves. If no type
that the classes above a definition name, and no argument of the instances above it, nests a
parameter, then no member of the definition does (`findMemberWithin_flat`).
-/

namespace Dynascript

/-- The types that stand inside a type of this kind : the element of an array, the arguments of an
instance. -/
def TypeKind.inner : TypeKind → List TypeId
  | array element _ => [element]
  | generic _ args => args
  | builtin | declared _ | parameter _ => []

theorem TypeKind.inner_subset_parents (kind : TypeKind) : kind.inner ⊆ kind.parents := by
  cases kind <;> simp [inner, parents]

theorem TypeKind.mem_signature {kind : TypeKind} {m : Member} {t : TypeId} (hm : m ∈ kind.members)
    (ht : t ∈ m.handles) : t ∈ kind.signature := by
  cases kind with
  | declared body => exact List.mem_flatMap.2 ⟨m, hm, ht⟩
  | builtin | array | generic | parameter => simp [members] at hm

namespace Registry

variable {r r' : Registry} {t t' ty owner : TypeId} {args : List TypeId} {i j n : Nat}
  {name : String} {entry : TypeEntry} {m m' : Member}

/-! ## What a type mentions -/

/-- The type parameter `i` occurs in a type : it is the type, or it occurs in a type inside. -/
inductive Mentions (r : Registry) (i : Nat) : TypeId → Prop
  | here {t : TypeId} (h : r.table.HasKind t (.parameter i)) : Mentions r i t
  | inside {t p : TypeId} {entry : TypeEntry} (hget : r.table.get t = .ok entry)
      (hp : p ∈ entry.kind.inner) (h : Mentions r i p) : Mentions r i t

/-- No type parameter occurs in the type. -/
def Closed (r : Registry) (t : TypeId) : Prop := ∀ i, ¬r.Mentions i t

/-- The type is no type parameter, but one occurs inside. -/
def Nests (r : Registry) (t : TypeId) : Prop :=
  ¬r.Closed t ∧ ∀ i, ¬r.table.HasKind t (.parameter i)

theorem mentions_iff (hget : r.table.get t = .ok entry) :
    r.Mentions i t ↔ entry.kind = .parameter i ∨ ∃ p ∈ entry.kind.inner, r.Mentions i p := by
  constructor
  · intro h
    cases h with
    | here h =>
      obtain ⟨entry', hget', hkind⟩ := h
      cases hget.symm.trans hget'
      exact .inl hkind
    | inside hget' hp h =>
      cases hget.symm.trans hget'
      exact .inr ⟨_, hp, h⟩
  · rintro (hkind | ⟨p, hp, h⟩)
    · exact .here ⟨entry, hget, hkind⟩
    · exact .inside hget hp h

/-- A parameter mentions itself and no other. -/
theorem mentions_parameter (h : r.table.HasKind t (.parameter i)) : r.Mentions j t ↔ i = j := by
  obtain ⟨entry, hget, hkind⟩ := h
  simp [mentions_iff hget, hkind, TypeKind.inner]

/-- What occurs in a type does not change as types are added. -/
theorem Grows.mentions_iff (hr : r.Valid) (h : r.Grows r') (ht : r.Has t) :
    r'.Mentions i t ↔ r.Mentions i t := by
  constructor
  · intro hm
    induction hm with
    | here hkind =>
      obtain ⟨entry, hget, hkind⟩ := hkind
      exact .here ⟨entry, h.get_of_has ht hget, hkind⟩
    | inside hget hp _ ih =>
      have hold := h.get_of_has ht hget
      exact .inside hold hp (ih (hr.has_parent hold (TypeKind.inner_subset_parents _ hp)))
  · intro hm
    induction hm with
    | here hkind =>
      obtain ⟨entry, hget, hkind⟩ := hkind
      exact .here ⟨entry, TypeTable.get_mono h.table hget, hkind⟩
    | inside hget hp _ ih =>
      have hold := hr.has_parent hget (TypeKind.inner_subset_parents _ hp)
      exact .inside (TypeTable.get_mono h.table hget) hp (ih hold)

theorem Grows.closed_iff (hr : r.Valid) (h : r.Grows r') (ht : r.Has t) :
    r'.Closed t ↔ r.Closed t :=
  forall_congr' fun _ => not_congr (h.mentions_iff hr ht)

theorem Grows.nests_iff (hr : r.Valid) (h : r.Grows r') (ht : r.Has t) :
    r'.Nests t ↔ r.Nests t := by
  refine and_congr (not_congr (h.closed_iff hr ht)) (forall_congr' fun i => not_congr ?_)
  constructor
  · rintro ⟨entry, hget, hkind⟩
    exact ⟨entry, h.get_of_has ht hget, hkind⟩
  · rintro ⟨entry, hget, hkind⟩
    exact ⟨entry, TypeTable.get_mono h.table hget, hkind⟩

/-! ## Putting in arguments -/

/-- A parameter becomes its argument, if there is one, and all else stays. -/
theorem substitute_cases (h : r.table.substitute args t = .ok t') :
    (∃ i, r.table.HasKind t (.parameter i) ∧ t' = args[i]?.getD t) ∨
      (∀ i, ¬r.table.HasKind t (.parameter i)) ∧ t' = t := by
  obtain ⟨entry, hget, h⟩ := bind_eq_ok.1 h
  cases hkind : entry.kind with
  | parameter i =>
    simp only [hkind] at h
    cases h
    exact .inl ⟨i, ⟨entry, hget, hkind⟩, rfl⟩
  | builtin | declared | array | generic =>
    simp only [hkind] at h
    cases h
    refine .inr ⟨?_, rfl⟩
    rintro i ⟨entry', hget', hkind'⟩
    cases hget.symm.trans hget'
    cases hkind.symm.trans hkind'

/-- What a type mentions once arguments are put in : what the argument of a parameter mentions, and
else what it mentioned before. -/
theorem mentions_substitute (h : r.table.substitute args t = .ok t') :
    r.Mentions j t' ↔
      (∃ i arg, r.table.HasKind t (.parameter i) ∧ args[i]? = some arg ∧ r.Mentions j arg) ∨
        (∀ i, r.table.HasKind t (.parameter i) → args[i]? = none) ∧ r.Mentions j t := by
  have unique {i k : Nat} (hi : r.table.HasKind t (.parameter i))
      (hk : r.table.HasKind t (.parameter k)) : i = k := (mentions_parameter hi).1 (.here hk)
  rcases substitute_cases h with ⟨i, hi, rfl⟩ | ⟨hnone, rfl⟩
  · cases harg : args[i]? with
    | none =>
      have hall : ∀ k, r.table.HasKind t (.parameter k) → args[k]? = none :=
        fun k hk => unique hi hk ▸ harg
      refine ⟨fun hm => .inr ⟨hall, hm⟩, ?_⟩
      rintro (⟨k, arg, hk, hsome, -⟩ | ⟨-, hm⟩)
      · cases (hall k hk).symm.trans hsome
      · exact hm
    | some arg =>
      refine ⟨fun hm => .inl ⟨i, arg, hi, harg, hm⟩, ?_⟩
      rintro (⟨k, arg', hk, hsome, hm⟩ | ⟨hall, -⟩)
      · obtain rfl := unique hi hk
        cases harg.symm.trans hsome
        exact hm
      · cases harg.symm.trans (hall i hi)
  · refine ⟨fun hm => .inr ⟨fun i hi => absurd hi (hnone i), hm⟩, ?_⟩
    rintro (⟨i, arg, hi, -⟩ | ⟨-, hm⟩)
    · exact absurd hi (hnone i)
    · exact hm

/-- Closed arguments, one for each parameter that the type mentions, leave it closed exactly if it
nests none. -/
theorem closed_substitute_iff (hclosed : ∀ a ∈ args, r.Closed a)
    (hbound : ∀ i, r.Mentions i t → i < args.length)
    (h : r.table.substitute args t = .ok t') : r.Closed t' ↔ ¬r.Nests t := by
  constructor
  · rintro hc ⟨hopen, hnone⟩
    obtain ⟨i, hm⟩ := not_forall_not.1 hopen
    exact hc i ((mentions_substitute h).2 (.inr ⟨fun k hk => absurd hk (hnone k), hm⟩))
  · intro hflat j hm
    rcases (mentions_substitute h).1 hm with ⟨i, arg, -, harg, hm⟩ | ⟨hnone, hm⟩
    · exact hclosed arg (List.mem_of_getElem? harg) j hm
    · refine hflat ⟨fun hc => hc j hm, fun i hi => ?_⟩
      have hlt := hbound i (.here hi)
      exact absurd (List.getElem?_eq_none_iff.1 (hnone i hi)) (by omega)

/-- An argument that nests no parameter brings none into a type that nests none. -/
theorem flat_substitute (hargs : ∀ a ∈ args, ¬r.Nests a) (ht : ¬r.Nests t)
    (h : r.table.substitute args t = .ok t') : ¬r.Nests t' := by
  rcases substitute_cases h with ⟨i, hi, rfl⟩ | ⟨-, rfl⟩
  · cases harg : args[i]? with
    | none => exact ht
    | some arg => exact hargs arg (List.mem_of_getElem? harg)
  · exact ht

/-! ## Members -/

theorem forall₂_of_mapM {α β : Type} {f : α → Except Dangling β} :
    ∀ {l : List α} {res : List β}, l.mapM f = .ok res → List.Forall₂ (fun a b => f a = .ok b) l res
  | [], _, h => by
    cases h
    exact .nil
  | a :: l, res, h => by
    rw [List.mapM_cons] at h
    obtain ⟨b, hb, h⟩ := bind_eq_ok.1 h
    obtain ⟨bs, hbs, h⟩ := bind_eq_ok.1 h
    cases h
    exact .cons hb (forall₂_of_mapM hbs)

/-- Arguments are put in type by type. -/
theorem handles_instantiate (h : r.table.instantiate args m = .ok m') :
    List.Forall₂ (fun t t' => r.table.substitute args t = .ok t') m.handles m'.handles := by
  unfold TypeTable.instantiate at h
  cases hkind : m.kind with
  | field type =>
    simp only [hkind] at h
    obtain ⟨type', htype, h⟩ := bind_eq_ok.1 h
    cases h
    simpa [Member.handles, hkind] using htype
  | method parameters result =>
    simp only [hkind] at h
    obtain ⟨parameters', hparameters, h⟩ := bind_eq_ok.1 h
    obtain ⟨result', hresult, h⟩ := bind_eq_ok.1 h
    cases h
    simp only [Member.handles, hkind]
    exact List.rel_append (forall₂_of_mapM hparameters) (.cons hresult .nil)
  | indexer key value =>
    simp only [hkind] at h
    obtain ⟨key', hkey, h⟩ := bind_eq_ok.1 h
    obtain ⟨value', hvalue, h⟩ := bind_eq_ok.1 h
    cases h
    simpa [Member.handles, hkind] using ⟨hkey, hvalue⟩

theorem exists_of_mem_right {α β : Type} {rel : α → β → Prop} {as : List α} {bs : List β}
    (h : List.Forall₂ rel as bs) {b : β} (hb : b ∈ bs) : ∃ a ∈ as, rel a b := by
  induction h with
  | nil => cases hb
  | cons hab _ ih =>
    rcases List.mem_cons.1 hb with rfl | hb
    · exact ⟨_, List.mem_cons_self, hab⟩
    · obtain ⟨a, ha, hrel⟩ := ih hb
      exact ⟨a, List.mem_cons_of_mem _ ha, hrel⟩

/-- Closed arguments leave a member closed exactly if no type of its signature nests a parameter. -/
theorem closed_instantiate_iff (hclosed : ∀ a ∈ args, r.Closed a)
    (hbound : ∀ t ∈ m.handles, ∀ i, r.Mentions i t → i < args.length)
    (h : r.table.instantiate args m = .ok m') :
    (∀ t ∈ m'.handles, r.Closed t) ↔ ∀ t ∈ m.handles, ¬r.Nests t := by
  have hhandles := handles_instantiate h
  constructor
  · intro hc t ht
    obtain ⟨t', ht', hs⟩ := exists_of_mem_right hhandles.flip ht
    exact (closed_substitute_iff hclosed (hbound t ht) hs).1 (hc t' ht')
  · intro hflat t' ht'
    obtain ⟨t, ht, hs⟩ := exists_of_mem_right hhandles ht'
    exact (closed_substitute_iff hclosed (hbound t ht) hs).2 (hflat t ht)

/-- If neither the signatures above a type nor the arguments of the instances above it nest a
parameter, no signature of a member that it has does. -/
theorem findMemberWithin_flat
    (hflat : ∀ c entry, r.Reaches ty c → r.table.get c = .ok entry →
      ∀ t ∈ entry.kind.signature ++ entry.kind.inner, ¬r.Nests t)
    (hf : r.table.findMemberWithin name n ty = .ok (some (owner, m))) :
    ∀ t ∈ m.handles, ¬r.Nests t := by
  refine findMemberWithin_induct (p := fun m => ∀ t ∈ m.handles, ¬r.Nests t) ?_ ?_ hf
  · intro c entry m hc hget hown t ht
    refine hflat c entry hc hget t (List.mem_append_left _ ?_)
    exact TypeKind.mem_signature (List.mem_of_find?_eq_some hown) ht
  · rintro c definition args m m' hc ⟨entry, hget, hkind⟩ hm hm' t' ht'
    obtain ⟨t, ht, hs⟩ := exists_of_mem_right (handles_instantiate hm') ht'
    refine flat_substitute (fun a ha => hflat c entry hc hget a ?_) (hm t ht) hs
    exact List.mem_append_right _ (by rwa [hkind])

theorem findMember_handles (hr : r.Valid) (hty : r.Has ty)
    (hf : r.findMember ty name = .ok (some (owner, m))) : ∀ t ∈ m.handles, r.Has t := by
  have hself : (Pairing.start hr .refl).Handle ty ty := Pairing.handle_self hty
  obtain ⟨found, found', hfound, -, hrel⟩ := Pairing.findMember hself name
  cases hf.symm.trans hfound
  cases hrel with
  | some h => exact h.2.1

/-- The member search on an instance, by the search on its definition. -/
theorem findMember_makeGeneric (hr : r.Valid) {definition id : TypeId} (hd : r.Has definition)
    (hargs : ∀ a ∈ args, r.Has a) (hmade : r.makeGeneric definition args = .ok (id, r'))
    (name : String) :
    ∃ found found', r.findMember definition name = .ok found ∧ r'.findMember id name = .ok found' ∧
      Option.Rel (fun p q => q.1 = id ∧ r'.table.instantiate args p.2 = .ok q.2) found found' := by
  have hgrows := grows_makeGeneric hmade
  have hr' : r'.Valid := (Makes.step (.makeGeneric definition args) .refl trivial
    (List.forall_mem_cons.2 ⟨hd, hargs⟩) (bind_eq_ok.2 ⟨_, hmade, rfl⟩)).valid hr
  obtain ⟨entry, hget, -⟩ := kind_makeGeneric hmade
  have hid : r'.Has id := has_of_get hget
  obtain ⟨found', hends'⟩ := findMemberWithin_ends hr' hid name
  have hf' : r'.findMember id name = .ok found' := hends' _ (Nat.lt_succ_of_lt hid)
  obtain ⟨found, hends⟩ := findMemberWithin_ends hr hd name
  obtain ⟨above, habove, hrel⟩ := findMemberWithin_generic (kind_makeGeneric hmade) hf'
  -- The definition was there before the instance, so the steps that are left are enough for it.
  have hsame : r'.table.findMemberWithin name r'.table.size definition = .ok found :=
    TypeTable.findMemberWithin_mono hgrows.table name (hd.grow hgrows)
      (hends _ (Nat.lt_succ_self definition.index))
  cases habove.symm.trans hsame
  exact ⟨found, found', hends _ (Nat.lt_succ_of_lt hd), hf', hrel⟩

/-- The members of an instance whose arguments are closed, one for each parameter of the
definition. The instance has a member if and only if the definition has it, and a parameter is left
behind in its signature if and only if one is nested in the signature that the definition's member
has. So none is left behind if no signature above the definition, and no argument of an instance
above it, nests a parameter. -/
theorem instance_member_closed_iff {root : String} {allowed : RegistryOp → Prop}
    (h : Built root allowed r) {definition : TypeId} {body : ClassBody}
    (hdefinition : r.table.HasKind definition (.declared body))
    (hbound : ∀ name owner m, r.findMember definition name = .ok (some (owner, m)) →
      ∀ t ∈ m.handles, ∀ i, r.Mentions i t → i < body.arity)
    (hcount : args.length = body.arity) (hargs : ∀ a ∈ args, r.Has a)
    (hclosed : ∀ a ∈ args, r.Closed a) :
    ∃ id r', r.makeGeneric definition args = .ok (id, r') ∧
      (∀ name, ∃ found found', r.findMember definition name = .ok found ∧
        r'.findMember id name = .ok found' ∧
        Option.Rel (fun p q => q.1 = id ∧
          ((∀ t ∈ q.2.handles, r'.Closed t) ↔ ∀ t ∈ p.2.handles, ¬r.Nests t)) found found') ∧
      ((∀ c entry, r.Reaches definition c → r.table.get c = .ok entry →
          ∀ t ∈ entry.kind.signature ++ entry.kind.inner, ¬r.Nests t) →
        ∀ name owner m, r'.findMember id name = .ok (some (owner, m)) →
          ∀ t ∈ m.handles, r'.Closed t) := by
  have hr : r.Valid := h.valid
  obtain ⟨entry, hget, -⟩ := hdefinition
  have hd : r.Has definition := has_of_get hget
  obtain ⟨id, r', hmade, hensures⟩ := makeGeneric_ensures args hget
  have hgrows := hensures.grows
  have members (name : String) : ∃ found found', r.findMember definition name = .ok found ∧
      r'.findMember id name = .ok found' ∧ Option.Rel (fun p q => q.1 = id ∧
        ((∀ t ∈ q.2.handles, r'.Closed t) ↔ ∀ t ∈ p.2.handles, ¬r.Nests t)) found found' := by
    obtain ⟨found, found', hf, hf', hrel⟩ := findMember_makeGeneric hr hd hargs hmade name
    refine ⟨found, found', hf, hf', ?_⟩
    cases hrel with
    | none => exact .none
    | @some p q hpq =>
      have hhas := findMember_handles hr hd hf
      refine .some ⟨hpq.1, ?_⟩
      rw [closed_instantiate_iff (fun a ha => (hgrows.closed_iff hr (hargs a ha)).2 (hclosed a ha))
        (fun t ht i hm => ?_) hpq.2]
      · exact forall₂_congr fun t ht => not_congr (hgrows.nests_iff hr (hhas t ht))
      · rw [hcount]
        exact hbound name p.1 p.2 hf t ht i ((hgrows.mentions_iff hr (hhas t ht)).1 hm)
  refine ⟨id, r', hmade, members, fun hflat name owner m hm => ?_⟩
  obtain ⟨found, found', hf, hf', hrel⟩ := members name
  cases hm.symm.trans hf'
  cases hrel with
  | some hpq => exact hpq.2.2 (findMemberWithin_flat hflat hf)

/-- A generic class with a field of the type of its parameter and a field that is an array of
it. -/
def boxClass : ClassDecl :=
  ClassDecl.ofClass "Box"
    |>.generic 1
    |>.withMember (.field "first" .param0)
    |>.withMember (.field "all" ⟨22⟩)

/-- The first registry with the array of the parameter and the class. -/
def boxRegistry : Registry :=
  ((bootstrap "app").addType .array "" "" (.array .param0 1)).addClass boxClass

theorem boxRegistry_built : Built "app" (fun _ => True) boxRegistry := by
  have hparam : (bootstrap "app").Has .param0 := (bootstrap_valid "app").has (by decide)
  have hmissing : (bootstrap "app").table.array? .param0 1 = none := by decide +kernel
  have hmade : (bootstrap "app").makeArray .param0 1 =
      (⟨22⟩, (bootstrap "app").addType .array "" "" (.array .param0 1)) := by
    simp only [makeArray, hmissing]
    rfl
  refine .step (.declare boxClass) (.step (.makeArray .param0 1) .start trivial
    (List.forall_mem_singleton.2 hparam) ?_) trivial (by decide) rfl
  exact congrArg (fun made => Except.ok made.2) hmade

/-- The type of a field is the parameter or the array of it. -/
theorem box_types {name : String} {owner t : TypeId} {m : Member}
    (hf : boxRegistry.findMember ⟨23⟩ name = .ok (some (owner, m))) (ht : t ∈ m.handles) :
    t = .param0 ∨ t = ⟨22⟩ := by
  obtain ⟨entry, hget, ⟨m', hown, hfound⟩ | ⟨-, above, habove, hfound⟩⟩ := findMemberWithin_step hf
  · cases hget
    cases hfound
    have hm : m ∈ [Member.field "all" ⟨22⟩, .field "first" .param0] :=
      List.mem_of_find?_eq_some hown
    rcases List.mem_pair.1 hm with rfl | rfl
    · exact .inr (List.mem_singleton.1 ht)
    · exact .inl (List.mem_singleton.1 ht)
  · cases hget
    cases habove
    rcases hfound with hfound | ⟨_, _, _, _, _, hnone, _⟩
    · cases hfound
    · cases hnone

/-- In `Box.<int>` the parameter is left in the type of one field. -/
theorem box_keeps_parameter :
    boxRegistry.table.HasKind ⟨23⟩ (.declared boxClass.body) ∧ boxRegistry.Closed .int ∧
      ∃ id r', boxRegistry.makeGeneric ⟨23⟩ [.int] = .ok (id, r') ∧
        (∃ m, r'.findMember id "first" = .ok (some (id, m)) ∧ ∀ t ∈ m.handles, r'.Closed t) ∧
        ∃ m, r'.findMember id "all" = .ok (some (id, m)) ∧ ¬∀ t ∈ m.handles, r'.Closed t := by
  have hbox : boxRegistry.table.HasKind ⟨23⟩ (.declared boxClass.body) :=
    ⟨⟨⟨23⟩, boxClass.flags, "Box", "", .declared boxClass.body⟩, rfl, rfl⟩
  have harray : boxRegistry.table.get ⟨22⟩ = .ok ⟨⟨22⟩, .array, "", "", .array .param0 1⟩ := rfl
  have hparam : boxRegistry.table.HasKind .param0 (.parameter 0) :=
    ⟨⟨.param0, .typeParameter, "T0", "", .parameter 0⟩, rfl, rfl⟩
  have hint : boxRegistry.table.get .int = .ok ⟨.int, .primitive, "int", "", .builtin⟩ := rfl
  have hclosed : boxRegistry.Closed .int := fun i => by simp [mentions_iff hint, TypeKind.inner]
  have hmentions (i : Nat) : boxRegistry.Mentions i ⟨22⟩ ↔ 0 = i := by
    simp [mentions_iff harray, TypeKind.inner, mentions_parameter hparam]
  have hhas : boxRegistry.Has .int := boxRegistry_built.valid.has (by decide)
  obtain ⟨id, r', hmade, hmembers, -⟩ := instance_member_closed_iff boxRegistry_built hbox
    (fun name owner m hf t ht i hm => by
      rcases box_types hf ht with rfl | rfl
      · exact (mentions_parameter hparam).1 hm ▸ Nat.one_pos
      · exact (hmentions i).1 hm ▸ Nat.one_pos)
    rfl (List.forall_mem_singleton.2 hhas) (List.forall_mem_singleton.2 hclosed)
  have hfield (name : String) (type : TypeId) (hfound : boxRegistry.findMember ⟨23⟩ name =
      .ok (some (⟨23⟩, .field name type))) : ∃ m, r'.findMember id name = .ok (some (id, m)) ∧
        ((∀ t ∈ m.handles, r'.Closed t) ↔ ¬boxRegistry.Nests type) := by
    obtain ⟨found, found', hf, hf', hrel⟩ := hmembers name
    cases hfound.symm.trans hf
    cases hrel with
    | @some p q hpq =>
      obtain ⟨rfl, hiff⟩ := hpq
      exact ⟨q.2, hf', hiff.trans List.forall_mem_singleton⟩
  obtain ⟨first, hfirst, hiff⟩ := hfield "first" .param0 rfl
  obtain ⟨all, hall, hiff'⟩ := hfield "all" ⟨22⟩ rfl
  refine ⟨hbox, hclosed, id, r', hmade, ⟨first, hfirst, hiff.2 fun h => h.2 0 hparam⟩, all, hall,
    fun hall => hiff'.1 hall ⟨fun hc => hc 0 ((hmentions 0).2 rfl), ?_⟩⟩
  rintro i ⟨entry, hget, hkind⟩
  cases harray.symm.trans hget
  cases hkind

end Registry

end Dynascript
