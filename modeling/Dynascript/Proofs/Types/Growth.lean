import Dynascript.Types.Registry

/-!
# Growing type tables

A table grows by types added at its end (`TypeTable.Extends`), and a registry by a table
that grows under names that stay (`Registry.Grows`). An answer that a search gave in the
smaller table is the answer in the larger one (`findMember_mono`), with no condition on
the table : a search that ran into a dangling handle gave no answer.

The type that a member search names is where the member is found again
(`findMember_owner`).
-/

namespace Dynascript

/-- A computation that may fail gives `b` through the value of its first part. -/
theorem bind_eq_ok {ε α β : Type} {x : Except ε α} {f : α → Except ε β} {b : β} :
    (x >>= f) = .ok b ↔ ∃ a, x = .ok a ∧ f a = .ok b := by
  cases x <;> simp [bind, Except.bind]

namespace TypeTable

variable {t t' : TypeTable}

/-- `t'` is `t` with more types at the end. -/
def Extends (t t' : TypeTable) : Prop := t.entries.toList <+: t'.entries.toList

theorem Extends.refl (t : TypeTable) : t.Extends t := List.prefix_refl _

theorem Extends.trans {t'' : TypeTable} (h : t.Extends t') (h' : t'.Extends t'') :
    t.Extends t'' :=
  List.IsPrefix.trans h h'

theorem Extends.size_le (h : t.Extends t') : t.size ≤ t'.size := by
  simpa [size] using List.IsPrefix.length_le h

theorem extends_add (t : TypeTable) (flags : TypeFlags) (name space : String)
    (kind : TypeKind) : t.Extends (t.add flags name space kind) := by
  simp [Extends, add]

theorem get_eq_ok {id : TypeId} {entry : TypeEntry} :
    t.get id = .ok entry ↔ t.entries[id.index]? = some entry := by
  unfold get
  cases t.entries[id.index]? <;> simp

theorem get_mono (h : t.Extends t') {id : TypeId} {entry : TypeEntry}
    (hget : t.get id = .ok entry) : t'.get id = .ok entry := by
  rw [get_eq_ok] at hget ⊢
  obtain ⟨added, hadded⟩ := h
  obtain ⟨hlt, -⟩ := Array.getElem?_eq_some_iff.1 hget
  rw [← Array.getElem?_toList] at hget ⊢
  rw [← hadded, List.getElem?_append_left (by simpa using hlt), hget]

theorem get_next (t : TypeTable) (flags : TypeFlags) (name space : String) (kind : TypeKind) :
    (t.add flags name space kind).get t.next = .ok ⟨t.next, flags, name, space, kind⟩ := by
  simp [get_eq_ok, add, next]

theorem get_of_findKind? {p : TypeKind → Bool} {id : TypeId} (h : t.findKind? p = some id) :
    ∃ entry, t.get id = .ok entry ∧ p entry.kind = true := by
  obtain ⟨i, hi, rfl⟩ := Option.map_eq_some_iff.1 h
  obtain ⟨hlt, hp, -⟩ := Array.findIdx?_eq_some_iff_getElem.1 hi
  exact ⟨t.entries[i], get_eq_ok.2 (Array.getElem?_eq_getElem hlt), hp⟩

theorem substitute_mono (h : t.Extends t') {args : List TypeId} {type res : TypeId}
    (hs : t.substitute args type = .ok res) : t'.substitute args type = .ok res := by
  unfold substitute at hs ⊢
  obtain ⟨entry, hentry, hs⟩ := bind_eq_ok.1 hs
  exact bind_eq_ok.2 ⟨entry, get_mono h hentry, hs⟩

theorem mapM_mono {α β : Type} {f g : α → Except Dangling β} :
    ∀ {l : List α} {res : List β}, (∀ a b, f a = .ok b → g a = .ok b) →
      l.mapM f = .ok res → l.mapM g = .ok res
  | [], _, _, h => h
  | a :: l, res, hfg, h => by
    rw [List.mapM_cons] at h ⊢
    obtain ⟨b, hb, h⟩ := bind_eq_ok.1 h
    obtain ⟨bs, hbs, h⟩ := bind_eq_ok.1 h
    exact bind_eq_ok.2 ⟨b, hfg a b hb, bind_eq_ok.2
      ⟨bs, mapM_mono hfg hbs, h⟩⟩

theorem instantiate_mono (h : t.Extends t') {args : List TypeId} {m res : Member}
    (hm : t.instantiate args m = .ok res) : t'.instantiate args m = .ok res := by
  unfold instantiate at hm ⊢
  cases hk : m.kind with
  | field type =>
    simp only [hk] at hm ⊢
    obtain ⟨type', htype, hm⟩ := bind_eq_ok.1 hm
    exact bind_eq_ok.2 ⟨type', substitute_mono h htype, hm⟩
  | method parameters result =>
    simp only [hk] at hm ⊢
    obtain ⟨ps, hps, hm⟩ := bind_eq_ok.1 hm
    obtain ⟨result', hresult, hm⟩ := bind_eq_ok.1 hm
    exact bind_eq_ok.2 ⟨ps, mapM_mono (fun _ _ => substitute_mono h) hps,
      bind_eq_ok.2 ⟨result', substitute_mono h hresult, hm⟩⟩
  | indexer key value =>
    simp only [hk] at hm ⊢
    obtain ⟨key', hkey, hm⟩ := bind_eq_ok.1 hm
    obtain ⟨value', hvalue, hm⟩ := bind_eq_ok.1 hm
    exact bind_eq_ok.2 ⟨key', substitute_mono h hkey,
      bind_eq_ok.2 ⟨value', substitute_mono h hvalue, hm⟩⟩

/-! ## Members -/

theorem findSomeM?_mono {α β : Type} {f g : α → Except Dangling (Option β)} :
    ∀ {l : List α} {res : Option β}, (∀ a b, f a = .ok b → g a = .ok b) →
      l.findSomeM? f = .ok res → l.findSomeM? g = .ok res
  | [], _, _, h => h
  | a :: l, res, hfg, h => by
    rw [List.findSomeM?_cons] at h ⊢
    obtain ⟨b, hb, h⟩ := bind_eq_ok.1 h
    refine bind_eq_ok.2 ⟨b, hfg a b hb, ?_⟩
    cases b with
    | some b => exact h
    | none => exact findSomeM?_mono hfg h

/-- What a search through a list finds, it finds at one of its items. -/
theorem exists_of_findSomeM? {α β : Type} {f : α → Except Dangling (Option β)} {b : β} :
    ∀ {l : List α}, l.findSomeM? f = .ok (some b) → ∃ a ∈ l, f a = .ok (some b)
  | [], h => by cases h
  | a :: l, h => by
    rw [List.findSomeM?_cons] at h
    obtain ⟨b', hb', h⟩ := bind_eq_ok.1 h
    cases b' with
    | some b' =>
      cases h
      exact ⟨a, by simp, hb'⟩
    | none =>
      obtain ⟨a', ha', hf⟩ := exists_of_findSomeM? h
      exact ⟨a', by simp [ha'], hf⟩

/-- A member search that ended gives the same answer with more steps and in a larger
table. -/
theorem findMemberWithin_mono (h : t.Extends t') (name : String) :
    ∀ {n n' : Nat} {ty : TypeId} {res : Option (TypeId × Member)}, n ≤ n' →
      t.findMemberWithin name n ty = .ok res → t'.findMemberWithin name n' ty = .ok res
  | 0, _, _, _, _, hf => by cases hf
  | n + 1, 0, _, _, hle, _ => by omega
  | n + 1, n' + 1, ty, res, hle, hf => by
    rw [findMemberWithin] at hf ⊢
    obtain ⟨entry, hentry, hf⟩ := bind_eq_ok.1 hf
    refine bind_eq_ok.2 ⟨entry, get_mono h hentry, ?_⟩
    cases hk : entry.kind with
    | declared body =>
      simp only [hk] at hf ⊢
      cases hm : body.member? name with
      | some m => simpa only [hm] using hf
      | none =>
        simp only [hm] at hf ⊢
        exact findSomeM?_mono
          (fun _ _ => findMemberWithin_mono h name (Nat.le_of_succ_le_succ hle)) hf
    | generic definition args =>
      simp only [hk] at hf ⊢
      obtain ⟨found, hfound, hf⟩ := bind_eq_ok.1 hf
      refine bind_eq_ok.2
        ⟨found, findMemberWithin_mono h name (Nat.le_of_succ_le_succ hle) hfound, ?_⟩
      cases found with
      | none => exact hf
      | some p =>
        obtain ⟨m, hm, hf⟩ := bind_eq_ok.1 hf
        exact bind_eq_ok.2 ⟨m, instantiate_mono h hm, hf⟩
    | builtin => simpa only [hk] using hf
    | array element rank => simpa only [hk] using hf
    | parameter index => simpa only [hk] using hf

theorem findMember_mono (h : t.Extends t') {ty : TypeId} {name : String}
    {res : Option (TypeId × Member)} (hf : t.findMember ty name = .ok res) :
    t'.findMember ty name = .ok res :=
  findMemberWithin_mono h name (Nat.succ_le_succ h.size_le) hf

/-- Where a member comes from : the type declares it, a parent has it, or it is made from a
member of the definition. Only a parent is its owner in the place of the type. -/
theorem findMemberWithin_cases {name : String} {n : Nat} {ty owner : TypeId} {m : Member}
    (hf : t.findMemberWithin name (n + 1) ty = .ok (some (owner, m))) :
    (owner = ty ∧ m.name = name) ∨
    (∃ parent, t.findMemberWithin name n parent = .ok (some (owner, m))) ∨
    (owner = ty ∧ ∃ definition args p, t.findMemberWithin name n definition = .ok (some p) ∧
      t.instantiate args p.2 = .ok m) := by
  rw [findMemberWithin] at hf
  obtain ⟨entry, -, hf⟩ := bind_eq_ok.1 hf
  cases hk : entry.kind with
  | declared body =>
    simp only [hk] at hf
    cases hm : body.member? name with
    | some m' =>
      simp only [hm] at hf
      cases hf
      exact .inl ⟨rfl, by simpa using List.find?_some hm⟩
    | none =>
      simp only [hm] at hf
      obtain ⟨parent, -, hparent⟩ := exists_of_findSomeM? hf
      exact .inr (.inl ⟨parent, hparent⟩)
  | generic definition args =>
    simp only [hk] at hf
    obtain ⟨found, hfound, hf⟩ := bind_eq_ok.1 hf
    cases found with
    | none => cases hf
    | some p =>
      obtain ⟨m', hm', hf⟩ := bind_eq_ok.1 hf
      cases hf
      exact .inr (.inr ⟨rfl, definition, args, p, hfound, hm'⟩)
  | builtin => simp only [hk] at hf; cases hf
  | array element rank => simp only [hk] at hf; cases hf
  | parameter index => simp only [hk] at hf; cases hf

/-- Searching on from the type that a member belongs to finds the same member there. -/
theorem findMemberWithin_owner (name : String) :
    ∀ {n : Nat} {ty owner : TypeId} {m : Member},
      t.findMemberWithin name n ty = .ok (some (owner, m)) →
        t.findMemberWithin name n owner = .ok (some (owner, m))
  | 0, _, _, _, hf => by cases hf
  | n + 1, ty, owner, m, hf => by
    rcases findMemberWithin_cases hf with ⟨rfl, -⟩ | ⟨parent, hparent⟩ | ⟨rfl, -⟩
    · exact hf
    · exact findMemberWithin_mono (.refl t) name (Nat.le_succ n)
        (findMemberWithin_owner name hparent)
    · exact hf

theorem instantiate_name {args : List TypeId} {m res : Member}
    (hm : t.instantiate args m = .ok res) : res.name = m.name := by
  unfold instantiate at hm
  cases hk : m.kind with
  | field type =>
    simp only [hk] at hm
    obtain ⟨_, -, hm⟩ := bind_eq_ok.1 hm
    cases hm
    rfl
  | method parameters result =>
    simp only [hk] at hm
    obtain ⟨_, -, hm⟩ := bind_eq_ok.1 hm
    obtain ⟨_, -, hm⟩ := bind_eq_ok.1 hm
    cases hm
    rfl
  | indexer key value =>
    simp only [hk] at hm
    obtain ⟨_, -, hm⟩ := bind_eq_ok.1 hm
    obtain ⟨_, -, hm⟩ := bind_eq_ok.1 hm
    cases hm
    rfl

theorem findMemberWithin_name {name : String} :
    ∀ {n : Nat} {ty owner : TypeId} {m : Member},
      t.findMemberWithin name n ty = .ok (some (owner, m)) → m.name = name
  | 0, _, _, _, hf => by cases hf
  | n + 1, ty, owner, m, hf => by
    rcases findMemberWithin_cases hf with ⟨-, hname⟩ | ⟨parent, hparent⟩ |
      ⟨-, definition, args, p, hfound, hm⟩
    · exact hname
    · exact findMemberWithin_name hparent
    · rw [instantiate_name hm, findMemberWithin_name hfound]

/-- The type that a member belongs to is where it is found again. -/
theorem findMember_owner {ty owner : TypeId} {name : String} {m : Member}
    (hf : t.findMember ty name = .ok (some (owner, m))) :
    t.findMember owner name = .ok (some (owner, m)) :=
  findMemberWithin_owner name hf

theorem exists_mapM {α β : Type} {f : α → Except Dangling β} :
    ∀ {l : List α}, (∀ a ∈ l, ∃ b, f a = .ok b) → ∃ bs, l.mapM f = .ok bs
  | [], _ => ⟨[], rfl⟩
  | a :: l, h => by
    obtain ⟨⟨b, hb⟩, hrest⟩ := List.forall_mem_cons.1 h
    obtain ⟨bs, hbs⟩ := exists_mapM hrest
    rw [List.mapM_cons]
    exact ⟨b :: bs, bind_eq_ok.2 ⟨b, hb, bind_eq_ok.2 ⟨bs, hbs, rfl⟩⟩⟩

end TypeTable

/-! ## Registries -/

namespace Registry

/-- `r'` is `r` with more types, under the same names. -/
structure Grows (r r' : Registry) : Prop where
  table : r.table.Extends r'.table
  names : r'.names = r.names
  root : r'.root = r.root

variable {r r' : Registry}

theorem Grows.refl (r : Registry) : r.Grows r := ⟨.refl _, rfl, rfl⟩

theorem Grows.trans {r'' : Registry} (h : r.Grows r') (h' : r'.Grows r'') : r.Grows r'' :=
  ⟨h.table.trans h'.table, h'.names.trans h.names, h'.root.trans h.root⟩

theorem Grows.lookup (h : r.Grows r') (name : String) (arity : Nat) :
    r'.lookup name arity = r.lookup name arity := by
  rw [Registry.lookup, Registry.lookup, h.names]

theorem grows_addType (r : Registry) (flags : TypeFlags) (name space : String)
    (kind : TypeKind) : r.Grows (r.addType flags name space kind) :=
  ⟨TypeTable.extends_add .., rfl, rfl⟩

theorem grows_makeGeneric {definition id : TypeId} {args : List TypeId}
    (h : r.makeGeneric definition args = .ok (id, r')) : r.Grows r' := by
  unfold makeGeneric at h
  cases hi : r.table.instance? definition args with
  | some found =>
    simp only [hi] at h
    cases h
    exact .refl r
  | none =>
    simp only [hi] at h
    obtain ⟨d, -, h⟩ := bind_eq_ok.1 h
    cases h
    exact grows_addType ..

theorem grows_makeArray (r : Registry) (element : TypeId) (rank : Nat) :
    r.Grows (r.makeArray element rank).2 := by
  unfold makeArray
  cases r.table.array? element rank with
  | some found => exact .refl r
  | none => exact grows_addType ..

/-- What `makeGeneric` gives is the instance that was asked for. -/
theorem kind_makeGeneric {definition id : TypeId} {args : List TypeId}
    (h : r.makeGeneric definition args = .ok (id, r')) :
    ∃ entry, r'.table.get id = .ok entry ∧ entry.kind = .generic definition args := by
  unfold makeGeneric at h
  cases hi : r.table.instance? definition args with
  | some found =>
    simp only [hi] at h
    cases h
    obtain ⟨entry, hentry, hp⟩ := TypeTable.get_of_findKind? hi
    refine ⟨entry, hentry, ?_⟩
    cases hk : entry.kind <;> simp_all
  | none =>
    simp only [hi] at h
    obtain ⟨d, -, h⟩ := bind_eq_ok.1 h
    cases h
    exact ⟨_, TypeTable.get_next .., rfl⟩

/-- What `makeArray` gives is the array type that was asked for. -/
theorem arrayElement_makeArray (r : Registry) (element : TypeId) (rank : Nat) :
    (r.makeArray element rank).2.arrayElement (r.makeArray element rank).1 =
      .ok (some (element, rank)) := by
  unfold makeArray
  cases hi : r.table.array? element rank with
  | some found =>
    obtain ⟨entry, hentry, hp⟩ := TypeTable.get_of_findKind? hi
    have hk : entry.kind = .array element rank := by
      cases hk : entry.kind <;> simp_all
    refine bind_eq_ok.2 ⟨entry, hentry, ?_⟩
    simp only [hk]
    rfl
  | none => exact bind_eq_ok.2 ⟨_, TypeTable.get_next .., rfl⟩

/-- An answer that a question about one type gave does not change as types are added. -/
theorem Grows.flags (h : r.Grows r') {id : TypeId} {f : TypeFlags}
    (hf : r.flags id = .ok f) : r'.flags id = .ok f := by
  obtain ⟨entry, hentry, hf⟩ := bind_eq_ok.1 hf
  exact bind_eq_ok.2 ⟨entry, TypeTable.get_mono h.table hentry, hf⟩

theorem Grows.isDynamic (h : r.Grows r') {id : TypeId} {b : Bool}
    (hd : r.isDynamic id = .ok b) : r'.isDynamic id = .ok b := by
  obtain ⟨f, hf, hd⟩ := bind_eq_ok.1 hd
  exact bind_eq_ok.2 ⟨f, h.flags hf, hd⟩

theorem Grows.isDynamicClass (h : r.Grows r') {id : TypeId} {b : Bool}
    (hd : r.isDynamicClass id = .ok b) : r'.isDynamicClass id = .ok b := by
  obtain ⟨f, hf, hd⟩ := bind_eq_ok.1 hd
  exact bind_eq_ok.2 ⟨f, h.flags hf, hd⟩

theorem Grows.isDynamicCapable (h : r.Grows r') {id : TypeId} {b : Bool}
    (hd : r.isDynamicCapable id = .ok b) : r'.isDynamicCapable id = .ok b := by
  obtain ⟨f, hf, hd⟩ := bind_eq_ok.1 hd
  exact bind_eq_ok.2 ⟨f, h.flags hf, hd⟩

theorem Grows.arrayElement (h : r.Grows r') {id : TypeId} {res : Option (TypeId × Nat)}
    (ha : r.arrayElement id = .ok res) : r'.arrayElement id = .ok res := by
  obtain ⟨entry, hentry, ha⟩ := bind_eq_ok.1 ha
  exact bind_eq_ok.2 ⟨entry, TypeTable.get_mono h.table hentry, ha⟩

theorem Grows.findMember (h : r.Grows r') {ty : TypeId} {name : String}
    {res : Option (TypeId × Member)} (hf : r.findMember ty name = .ok res) :
    r'.findMember ty name = .ok res :=
  TypeTable.findMember_mono h.table hf

theorem findMember_owner {ty owner : TypeId} {name : String} {m : Member}
    (hf : r.findMember ty name = .ok (some (owner, m))) :
    r.findMember owner name = .ok (some (owner, m)) :=
  TypeTable.findMember_owner hf

/-- A member is found under its own name. -/
theorem findMember_name {ty owner : TypeId} {name : String} {m : Member}
    (hf : r.findMember ty name = .ok (some (owner, m))) : m.name = name :=
  TypeTable.findMemberWithin_name hf

theorem typeName_of_nameOf {ty : TypeId} {name : String} (h : r.nameOf ty = .ok name) :
    r.typeName ty = name := by
  have hname : r.table.nameOf ty = .ok name := h
  rw [typeName, TypeTable.typeName, hname]
  rfl

end Registry

end Dynascript
