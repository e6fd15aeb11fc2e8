import Dynascript.Proofs.Types.Answers
import Mathlib.Logic.Relation

/-!
# The types above a type

An edge (`Registry.Edge`) leads from a class to its base and to its interfaces, and from a generic
instance to its definition; `Registry.Reaches` is a path of edges. An edge leads to an earlier
type, so the two searches that follow edges come to an end, each in its own order.

* `implements_iff` : a type implements exactly the types that it reaches.
* `findMemberWithin_step` says once what a step of the member search does : it gives the type's
  own member, or else what the types above it have. From it come, by induction on the steps, that
  what is found is reached and declared (`findMemberWithin_some`), that nothing is overlooked
  (`findMemberWithin_none`), and what is known of a member from its declaration
  (`findMemberWithin_induct`).

`findMember_complete` puts the parts together.
-/

namespace Dynascript

namespace TypeKind

/-- The types that an entry of this kind takes members from, in the order of the search. -/
def supers : TypeKind → List TypeId
  | declared body => body.base.toList ++ body.interfaces
  | generic definition _ => [definition]
  | builtin | array .. | parameter _ => []

/-- The members that an entry of this kind has itself. -/
def members : TypeKind → List Member
  | declared body => body.members
  | _ => []

/-- The member of that name that an entry of this kind has itself. -/
def own? (kind : TypeKind) (name : String) : Option Member :=
  kind.members.find? (·.name == name)

theorem supers_subset_parents (kind : TypeKind) : kind.supers ⊆ kind.parents := by
  cases kind <;> simp [supers, parents]

theorem own?_eq_none {kind : TypeKind} {name : String} :
    kind.own? name = none ↔ ∀ m ∈ kind.members, m.name ≠ name := by
  simp [own?]

end TypeKind

/-! ## Searches through lists -/

section

variable {α β : Type}

/-- A search for an item with a property, if the test of every item has an answer. -/
theorem anyM_iff {f : α → Except Dangling Bool} {p : α → Prop} :
    ∀ {l : List α}, (∀ a ∈ l, ∃ b, f a = .ok b ∧ (b = true ↔ p a)) →
      ∃ b, l.anyM f = .ok b ∧ (b = true ↔ ∃ a ∈ l, p a)
  | [], _ => ⟨false, rfl, by simp⟩
  | a :: l, h => by
    obtain ⟨⟨b, hb, hp⟩, hl⟩ := List.forall_mem_cons.1 h
    obtain ⟨b', hb', hp'⟩ := anyM_iff hl
    rw [List.anyM, hb]
    cases b with
    | true => exact ⟨true, rfl, by simp [hp.1 rfl]⟩
    | false =>
      have hnot : ¬p a := fun ha => Bool.false_ne_true (hp.2 ha)
      exact ⟨b', hb', by rw [hp']; simp [hnot]⟩

/-- A search that finds nothing found nothing at any item. -/
theorem forall_of_findSomeM? {f : α → Except Dangling (Option β)} :
    ∀ {l : List α}, l.findSomeM? f = .ok none → ∀ a ∈ l, f a = .ok none
  | [], _ => by simp
  | a :: l, h => by
    rw [List.findSomeM?_cons] at h
    obtain ⟨found, hfound, h⟩ := bind_eq_ok.1 h
    cases found with
    | some b => cases h
    | none => exact List.forall_mem_cons.2 ⟨hfound, forall_of_findSomeM? h⟩

end

namespace Registry

variable {r : Registry} {a c ty : TypeId} {entry : TypeEntry} {name : String} {n : Nat}
  {found : Option (TypeId × Member)}

/-! ## Edges -/

/-- An edge from a class to its base or one of its interfaces, or from a generic instance to its
definition. -/
def Edge (r : Registry) (a b : TypeId) : Prop :=
  ∃ entry, r.table.get a = .ok entry ∧ b ∈ entry.kind.supers

/-- A path of zero or more edges. -/
def Reaches (r : Registry) : TypeId → TypeId → Prop := Relation.ReflTransGen r.Edge

/-- `c` is a class or interface with a member of that name among its own. -/
def Declares (r : Registry) (c : TypeId) (name : String) : Prop :=
  ∃ body, r.table.HasKind c (.declared body) ∧ ∃ m ∈ body.members, m.name = name

theorem reaches_iff (hget : r.table.get ty = .ok entry) :
    r.Reaches ty c ↔ ty = c ∨ ∃ p ∈ entry.kind.supers, r.Reaches p c := by
  have hedge (p : TypeId) : r.Edge ty p ↔ p ∈ entry.kind.supers := by
    constructor
    · rintro ⟨entry', hget', hp⟩
      cases hget.symm.trans hget'
      exact hp
    · exact fun hp => ⟨entry, hget, hp⟩
  simp only [Reaches, Relation.ReflTransGen.cases_head_iff (a := ty), hedge]

theorem declares_iff (hget : r.table.get ty = .ok entry) :
    r.Declares ty name ↔ ∃ m ∈ entry.kind.members, m.name = name := by
  constructor
  · rintro ⟨body, ⟨entry', hget', hkind⟩, hm⟩
    cases hget.symm.trans hget'
    rwa [hkind]
  · rintro ⟨m, hm, hname⟩
    cases hkind : entry.kind with
    | declared body =>
      rw [hkind] at hm
      exact ⟨body, ⟨entry, hget, hkind⟩, m, hm, hname⟩
    | builtin | array | generic | parameter => simp [hkind, TypeKind.members] at hm

/-- A type above is an earlier one. -/
theorem Valid.super_lt (hr : r.Valid) (hget : r.table.get ty = .ok entry)
    (ha : a ∈ entry.kind.supers) : a.index < ty.index :=
  hr.parents ty entry hget a (entry.kind.supers_subset_parents ha)

theorem Valid.has_super (hr : r.Valid) (hget : r.table.get ty = .ok entry)
    (ha : a ∈ entry.kind.supers) : r.Has a :=
  hr.has_parent hget (entry.kind.supers_subset_parents ha)

/-! ## Implementing -/

/-- With steps enough for the types before `ty`, the search tells what `ty` reaches. -/
theorem implementsWithin_iff (hr : r.Valid) (c : TypeId) :
    ∀ {n : Nat} {ty : TypeId}, r.Has ty → ty.index < n →
      ∃ b, r.table.implementsWithin c n ty = .ok b ∧ (b = true ↔ r.Reaches ty c)
  | 0, _, _, hn => by omega
  | n + 1, ty, hty, hn => by
    rw [TypeTable.implementsWithin]
    split
    · rename_i heq
      subst heq
      exact ⟨true, rfl, iff_of_true rfl .refl⟩
    · rename_i hne
      obtain ⟨entry, hget⟩ := hty.get
      have habove (p : TypeId) (hp : p ∈ entry.kind.supers) :
          ∃ b, r.table.implementsWithin c n p = .ok b ∧ (b = true ↔ r.Reaches p c) := by
        have hlt := hr.super_lt hget hp
        exact implementsWithin_iff hr c (hr.has_super hget hp) (by omega)
      simp only [reaches_iff hget, hne, false_or, hget, bind, Except.bind]
      cases hkind : entry.kind with
      | declared body =>
        -- Interfaces come first in this search, and the base first in the other one.
        rw [hkind] at habove
        have hany := anyM_iff (l := body.interfaces ++ body.base.toList) fun p hp =>
          habove p (by simpa [TypeKind.supers, or_comm] using hp)
        simpa only [TypeKind.supers, List.mem_append, or_comm] using hany
      | generic definition args =>
        obtain ⟨b, hb, hiff⟩ := habove definition (by simp [hkind, TypeKind.supers])
        exact ⟨b, hb, by simpa [TypeKind.supers] using hiff⟩
      | builtin | array | parameter => exact ⟨false, rfl, by simp [TypeKind.supers]⟩

theorem implements_iff (hr : r.Valid) (hty : r.Has ty) (c : TypeId) :
    ∃ b, r.implements ty c = .ok b ∧ (b = true ↔ r.Reaches ty c) :=
  implementsWithin_iff hr c hty (Nat.lt_succ_of_lt hty)

theorem Reaches.implements (hr : r.Valid) (hty : r.Has ty) (h : r.Reaches ty c) :
    r.implements ty c = .ok true := by
  obtain ⟨b, hb, hiff⟩ := implements_iff hr hty c
  rw [hb, hiff.2 h]

/-! ## Finding members -/

/-- The search on a generic instance is the search on its definition, with the arguments put in
for what it finds. -/
theorem findMemberWithin_generic {definition : TypeId} {args : List TypeId}
    (hkind : r.table.HasKind ty (.generic definition args))
    (hf : r.table.findMemberWithin name (n + 1) ty = .ok found) :
    ∃ above, r.table.findMemberWithin name n definition = .ok above ∧
      Option.Rel (fun p q => q.1 = ty ∧ r.table.instantiate args p.2 = .ok q.2) above found := by
  obtain ⟨entry, hget, hkind⟩ := hkind
  rw [TypeTable.findMemberWithin, hget] at hf
  simp only [bind, Except.bind, hkind] at hf
  obtain ⟨above, habove, hf⟩ := bind_eq_ok.1 hf
  refine ⟨above, habove, ?_⟩
  cases above with
  | none =>
    cases hf
    exact .none
  | some p =>
    obtain ⟨m, hm, hf⟩ := bind_eq_ok.1 hf
    cases hf
    exact .some ⟨rfl, hm⟩

/-- What one step of the search gives : the type's own member, or else what one of the types above
has. A generic instance takes it as its own, with the arguments put in; any other type leaves it to
its owner. -/
theorem findMemberWithin_step (hf : r.table.findMemberWithin name (n + 1) ty = .ok found) :
    ∃ entry, r.table.get ty = .ok entry ∧
      ((∃ m, entry.kind.own? name = some m ∧ found = some (ty, m)) ∨
        entry.kind.own? name = none ∧ ∃ above,
          entry.kind.supers.findSomeM? (r.table.findMemberWithin name n) = .ok above ∧
          (found = above ∨ ∃ definition args p m, entry.kind = .generic definition args ∧
            above = some p ∧ r.table.instantiate args p.2 = .ok m ∧ found = some (ty, m))) := by
  have hkinds := hf
  rw [TypeTable.findMemberWithin] at hkinds
  obtain ⟨entry, hget, hkinds⟩ := bind_eq_ok.1 hkinds
  refine ⟨entry, hget, ?_⟩
  cases hkind : entry.kind with
  | declared body =>
    simp only [hkind] at hkinds
    cases hm : body.member? name with
    | some m =>
      simp only [hm] at hkinds
      cases hkinds
      exact .inl ⟨m, hm, rfl⟩
    | none =>
      simp only [hm] at hkinds
      exact .inr ⟨hm, found, hkinds, .inl rfl⟩
  | generic definition args =>
    obtain ⟨above, habove, hrel⟩ := findMemberWithin_generic ⟨entry, hget, hkind⟩ hf
    refine .inr ⟨rfl, above, ?_, ?_⟩
    · rw [TypeKind.supers, List.findSomeM?_cons, habove]
      cases above <;> rfl
    · cases hrel with
      | none => exact .inl rfl
      | @some p q h => exact .inr ⟨definition, args, p, q.2, rfl, rfl, h.2, by rw [← h.1]⟩
  | builtin | array | parameter =>
    simp only [hkind] at hkinds
    cases hkinds
    exact .inr ⟨rfl, none, rfl, .inl rfl⟩

/-- What is found is declared by a type that the search reached, and so is its owner reached. -/
theorem findMemberWithin_some :
    ∀ {n : Nat} {ty owner : TypeId} {m : Member},
      r.table.findMemberWithin name n ty = .ok (some (owner, m)) →
        r.Reaches ty owner ∧ ∃ c, r.Reaches ty c ∧ r.Declares c name
  | 0, _, _, _, hf => by cases hf
  | n + 1, ty, owner, m, hf => by
    obtain ⟨entry, hget, ⟨m', hown, hfound⟩ | ⟨-, above, habove, hfound⟩⟩ :=
      findMemberWithin_step hf
    · cases hfound
      have hdeclares : r.Declares ty name := (declares_iff hget).2
        ⟨m, List.mem_of_find?_eq_some hown, by simpa using List.find?_some hown⟩
      exact ⟨.refl, ty, .refl, hdeclares⟩
    · have hstep {p : TypeId × Member} (hp : above = some p) :
          r.Reaches ty p.1 ∧ ∃ c, r.Reaches ty c ∧ r.Declares c name := by
        obtain ⟨parent, hparent, hsearch⟩ := TypeTable.exists_of_findSomeM? (hp ▸ habove)
        have hedge : r.Edge ty parent := ⟨entry, hget, hparent⟩
        obtain ⟨hreached, c, hc, hdeclares⟩ := findMemberWithin_some hsearch
        exact ⟨hreached.head hedge, c, hc.head hedge, hdeclares⟩
      rcases hfound with hfound | ⟨definition, args, p, m', -, hp, -, hfound⟩
      · exact hstep hfound.symm
      · cases hfound
        exact ⟨.refl, (hstep hp).2⟩

/-- If nothing is found, no type that is reached declares the name. -/
theorem findMemberWithin_none :
    ∀ {n : Nat} {ty : TypeId}, r.table.findMemberWithin name n ty = .ok none →
      ∀ c, r.Reaches ty c → ¬r.Declares c name
  | 0, _, hf => by cases hf
  | n + 1, ty, hf => by
    intro c hreaches hdeclares
    obtain ⟨entry, hget, ⟨m, -, hfound⟩ | ⟨hown, above, habove, hfound⟩⟩ := findMemberWithin_step hf
    · cases hfound
    · obtain rfl : above = none := by
        rcases hfound with hfound | ⟨definition, args, p, m, -, -, -, hfound⟩
        · exact hfound.symm
        · cases hfound
      rcases (reaches_iff hget).1 hreaches with rfl | ⟨p, hp, hreaches⟩
      · obtain ⟨m, hm, hname⟩ := (declares_iff hget).1 hdeclares
        exact TypeKind.own?_eq_none.1 hown m hm hname
      · exact findMemberWithin_none (forall_of_findSomeM? habove p hp) c hreaches hdeclares

/-- A class that declares the name is where the search ends. -/
theorem findMemberWithin_own (hf : r.table.findMemberWithin name (n + 1) ty = .ok found)
    (h : r.Declares ty name) :
    ∃ body m, r.table.HasKind ty (.declared body) ∧ body.member? name = some m ∧
      found = some (ty, m) := by
  obtain ⟨entry, hget, hstep⟩ := findMemberWithin_step hf
  rcases hstep with ⟨m, hown, hfound⟩ | ⟨hown, -⟩
  · obtain ⟨body, ⟨entry', hget', hkind⟩, -⟩ := h
    cases hget.symm.trans hget'
    rw [hkind] at hown
    exact ⟨body, m, ⟨entry, hget, hkind⟩, hown, hfound⟩
  · obtain ⟨m, hm, hname⟩ := (declares_iff hget).1 h
    exact absurd hname (TypeKind.own?_eq_none.1 hown m hm)

/-- What holds of the members that types above declare under the name, and is kept as arguments
are put in at instances above, holds of what is found. -/
theorem findMemberWithin_induct {p : Member → Prop} :
    ∀ {n : Nat} {ty owner : TypeId} {m : Member},
      (∀ c entry m, r.Reaches ty c → r.table.get c = .ok entry → entry.kind.own? name = some m →
        p m) →
      (∀ c definition args m m', r.Reaches ty c → r.table.HasKind c (.generic definition args) →
        p m → r.table.instantiate args m = .ok m' → p m') →
      r.table.findMemberWithin name n ty = .ok (some (owner, m)) → p m
  | 0, _, _, _, _, _, hf => by cases hf
  | n + 1, ty, owner, m, hown, hinstance, hf => by
    obtain ⟨entry, hget, ⟨m', hm', hfound⟩ | ⟨-, above, habove, hfound⟩⟩ :=
      findMemberWithin_step hf
    · cases hfound
      exact hown ty entry m .refl hget hm'
    · have hstep {q : TypeId × Member} (hq : above = some q) : p q.2 := by
        obtain ⟨parent, hparent, hsearch⟩ := TypeTable.exists_of_findSomeM? (hq ▸ habove)
        have hedge : r.Edge ty parent := ⟨entry, hget, hparent⟩
        exact findMemberWithin_induct (fun c entry m hc => hown c entry m (hc.head hedge))
          (fun c definition args m m' hc => hinstance c definition args m m' (hc.head hedge))
          hsearch
      rcases hfound with hfound | ⟨definition, args, q, m', hkind, hq, hm', hfound⟩
      · exact hstep hfound.symm
      · cases hfound
        exact hinstance ty definition args q.2 m .refl ⟨entry, hget, hkind⟩ (hstep hq) hm'

/-- The search has an answer, which the number of steps does not change once it is larger than
the number of types before `ty`. -/
theorem findMemberWithin_ends (hr : r.Valid) (hty : r.Has ty) (name : String) :
    ∃ found, ∀ n, ty.index < n → r.table.findMemberWithin name n ty = .ok found := by
  have hself : (Pairing.start hr .refl).Handle ty ty := Pairing.handle_self hty
  obtain ⟨found, -, hfound, -, -⟩ := Pairing.findMemberWithin name hself
    (Nat.lt_succ_self ty.index) (Nat.lt_succ_self ty.index)
  exact ⟨found, fun n hn => TypeTable.findMemberWithin_mono (.refl _) name hn hfound⟩

/-- The search for a member of a type ends. It finds one if and only if some class above declares
the name; a class's own member comes first; and what is found has the name, belongs to a type
that is implemented, and is found again from there. -/
theorem findMember_complete {root : String} {allowed : RegistryOp → Prop}
    (h : Built root allowed r) (hty : r.Has ty) (name : String) :
    ∃ found, r.findMember ty name = .ok found ∧
      (∀ n, ty.index < n → r.table.findMemberWithin name n ty = .ok found) ∧
      (found.isSome = true ↔ ∃ c, r.Reaches ty c ∧ r.Declares c name) ∧
      (r.Declares ty name → ∃ body m, r.table.HasKind ty (.declared body) ∧
        body.member? name = some m ∧ found = some (ty, m)) ∧
      ∀ owner m, found = some (owner, m) → m.name = name ∧
        r.implements ty owner = .ok true ∧ r.findMember owner name = .ok (some (owner, m)) := by
  have hr : r.Valid := h.valid
  obtain ⟨found, hends⟩ := findMemberWithin_ends hr hty name
  have hf : r.findMember ty name = .ok found := hends _ (Nat.lt_succ_of_lt hty)
  refine ⟨found, hf, hends, ⟨fun hsome => ?_, ?_⟩, findMemberWithin_own hf, ?_⟩
  · obtain ⟨⟨owner, m⟩, rfl⟩ := Option.isSome_iff_exists.1 hsome
    exact (findMemberWithin_some hf).2
  · rintro ⟨c, hreaches, hdeclares⟩
    cases found with
    | some p => rfl
    | none => exact absurd hdeclares (findMemberWithin_none hf c hreaches)
  · rintro owner m rfl
    exact ⟨TypeTable.findMemberWithin_name hf, (findMemberWithin_some hf).1.implements hr hty,
      findMember_owner hf⟩

/-- `Expando` has `Remove` by its interface `IDictionary.<String, Object>`, which has it by its
definition and owns it with the arguments put in. -/
theorem expando_remove_found :
    let r := bootstrap "app"
    let remove : Member := .method "Remove" [.string] .boolean
    r.Has .expando ∧ r.findMember .expando "Remove" = .ok (some (⟨16⟩, remove)) ∧
      (∃ c, r.Reaches .expando c ∧ r.Declares c "Remove") ∧
      r.implements .expando ⟨16⟩ = .ok true ∧
      r.findMember ⟨16⟩ "Remove" = .ok (some (⟨16⟩, remove)) := by
  have hhas : (bootstrap "app").Has .expando := (bootstrap_valid _).has (by decide)
  have hf : (bootstrap "app").findMember .expando "Remove" =
      .ok (some (⟨16⟩, .method "Remove" [.string] .boolean)) := by
    decide +kernel
  obtain ⟨found, hfound, -, hiff, -, howner⟩ :=
    findMember_complete (.start : Built "app" (fun _ => True) _) hhas "Remove"
  cases hf.symm.trans hfound
  obtain ⟨-, himplements, hagain⟩ := howner _ _ rfl
  exact ⟨hhas, hf, hiff.1 rfl, himplements, hagain⟩

end Registry

end Dynascript
