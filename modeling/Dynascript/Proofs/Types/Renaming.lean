import Dynascript.Proofs.Types.Valid
import Mathlib.Logic.Equiv.Basic

/-!
# Registries alike but for the numbers of their types

Two runs over registries with the same first types give the types they make different numbers.
A `Pairing` puts two such registries side by side, with a permutation of handles under which
every entry of the left one is an entry of the right one. It leaves the first types alone, so
what is asked of the two registries has the same answer up to the permutation : flags, members,
interfaces, and the very same text for the name of a type.

Where the left run makes a type, the right one makes it too, or has it already; the permutation
is extended by a swap that leaves alone all handles given out before (`Pairing.make`).
-/

namespace Dynascript

/-! ## Renaming -/

section

variable (f : TypeId → TypeId)

def MemberKind.rename : MemberKind → MemberKind
  | field type => field (f type)
  | method parameters result => method (parameters.map f) (f result)
  | indexer key value => indexer (f key) (f value)

def Member.rename (m : Member) : Member := { m with kind := m.kind.rename f }

def ClassBody.rename (b : ClassBody) : ClassBody :=
  { b with
    base := b.base.map f
    interfaces := b.interfaces.map f
    members := b.members.map (Member.rename f) }

def TypeKind.rename : TypeKind → TypeKind
  | builtin => builtin
  | declared body => declared (body.rename f)
  | array element rank => array (f element) rank
  | generic definition args => generic (f definition) (args.map f)
  | parameter index => parameter index

def TypeEntry.rename (e : TypeEntry) : TypeEntry :=
  { e with id := f e.id, kind := e.kind.rename f }

end

variable {f g : TypeId → TypeId}

theorem MemberKind.rename_rename (k : MemberKind) :
    (k.rename f).rename g = k.rename (g ∘ f) := by
  cases k <;> simp [rename]

theorem TypeKind.rename_rename (k : TypeKind) : (k.rename f).rename g = k.rename (g ∘ f) := by
  cases k <;> simp [rename, ClassBody.rename, Member.rename, MemberKind.rename_rename,
    Function.comp_def]

/-- Renamings that agree on the types of a signature rename the member alike. -/
theorem Member.rename_congr {m : Member} (h : ∀ t ∈ m.handles, f t = g t) :
    m.rename f = m.rename g := by
  obtain ⟨name, kind, isStatic⟩ := m
  cases kind <;> simp_all [rename, MemberKind.rename, handles]

theorem TypeKind.rename_congr {k : TypeKind} (hp : ∀ t ∈ k.parents, f t = g t)
    (hs : ∀ t ∈ k.signature, f t = g t) : k.rename f = k.rename g := by
  cases k with
  | declared body =>
    obtain ⟨base, interfaces, members, arity⟩ := body
    have hmembers : members.map (Member.rename f) = members.map (Member.rename g) :=
      List.map_congr_left fun m hm => Member.rename_congr fun t ht =>
        hs t (List.mem_flatMap.2 ⟨m, hm, ht⟩)
    have hbase : base.map f = base.map g := by
      cases base with
      | none => rfl
      | some b => simp [hp b (by simp [parents])]
    have hinterfaces : interfaces.map f = interfaces.map g :=
      List.map_congr_left fun t ht => hp t (by simp [parents, ht])
    simp [rename, ClassBody.rename, hmembers, hbase, hinterfaces]
  | array element rank => simp [rename, hp element (by simp [parents])]
  | generic definition args =>
    have hargs : args.map f = args.map g :=
      List.map_congr_left fun t ht => hp t (by simp [parents, ht])
    simp [rename, hp definition (by simp [parents]), hargs]
  | builtin | parameter => rfl

theorem MemberKind.rename_id (k : MemberKind) : k.rename id = k := by
  cases k <;> simp [rename]

theorem TypeKind.rename_id (k : TypeKind) : k.rename id = k := by
  cases k with
  | declared body =>
    have hmember : Member.rename id = id :=
      funext fun m => by simp [Member.rename, MemberKind.rename_id]
    simp [rename, ClassBody.rename, hmember]
  | builtin | array | generic | parameter => simp [rename]

/-- A renaming that leaves alone all types of an entry leaves the entry alone. -/
theorem TypeKind.rename_eq_self {k : TypeKind} (hp : ∀ t ∈ k.parents, f t = t)
    (hs : ∀ t ∈ k.signature, f t = t) : k.rename f = k :=
  (rename_congr (g := id) hp hs).trans k.rename_id

theorem TypeKind.rename_injective (σ : Equiv.Perm TypeId) :
    Function.Injective (TypeKind.rename σ) := by
  intro k k' h
  have hback (k : TypeKind) : (k.rename σ).rename σ.symm = k := by
    rw [rename_rename, Equiv.symm_comp_self, rename_id]
  rw [← hback k, h, hback k']

theorem TypeKind.parents_rename (k : TypeKind) : (k.rename f).parents = k.parents.map f := by
  cases k with
  | declared body =>
    obtain ⟨base, interfaces, members, arity⟩ := body
    cases base <;> simp [rename, ClassBody.rename, parents]
  | builtin | array | generic | parameter => simp [rename, parents]

/-! ## Two registries side by side -/

/-- Two registries, made from `R` and from an `R'` that was itself made from `R`, and a
permutation of handles under which the left one is a part of the right one. -/
structure Pairing (R R' : Registry) where
  left : Registry
  right : Registry
  perm : Equiv.Perm TypeId
  valid : R.Valid
  ahead : R.Makes R'
  leftMakes : R.Makes left
  rightMakes : R'.Makes right
  fixes : ∀ t, R.Has t → perm t = t
  entry : ∀ t e, left.table.get t = .ok e → right.table.get (perm t) = .ok (e.rename perm)
  /-- The right registry has no types of its own besides those of `R'`. -/
  covers : ∀ t, right.Has t → R'.Has t ∨ ∃ s, left.Has s ∧ perm s = t

namespace Pairing

variable {R R' : Registry}

/-- Before anything is made. -/
def start (hR : R.Valid) (hR' : R.Makes R') : Pairing R R' where
  left := R
  right := R'
  perm := Equiv.refl TypeId
  valid := hR
  ahead := hR'
  leftMakes := .refl
  rightMakes := .refl
  fixes := fun _ _ => rfl
  entry := by
    intro t e he
    have hrename : e.rename (Equiv.refl TypeId) = e := by
      simp [TypeEntry.rename, TypeKind.rename_id]
    rw [hrename]
    exact TypeTable.get_mono hR'.grows.table he
  covers := fun _ => .inl

/-- `w₁` is `w` with more types on both sides. -/
structure Le (w w₁ : Pairing R R') : Prop where
  left : w.left.Grows w₁.left
  right : w.right.Grows w₁.right
  agrees : ∀ t, w.left.Has t → w₁.perm t = w.perm t

theorem Le.refl (w : Pairing R R') : w.Le w := ⟨.refl _, .refl _, fun _ _ => rfl⟩

theorem Le.trans {w w₁ w₂ : Pairing R R'} (h : w.Le w₁) (h₁ : w₁.Le w₂) : w.Le w₂ :=
  ⟨h.left.trans h₁.left, h.right.trans h₁.right,
    fun t ht => (h₁.agrees t (ht.grow h.left)).trans (h.agrees t ht)⟩

variable (w : Pairing R R')

theorem leftValid : w.left.Valid := w.leftMakes.valid w.valid

theorem rightMakesFrom : R.Makes w.right := w.ahead.trans w.rightMakes

theorem rightValid : w.right.Valid := w.rightMakesFrom.valid w.valid

variable {w} {t : TypeId}

theorem get (ht : w.left.Has t) : ∃ e, w.left.table.get t = .ok e ∧
    w.right.table.get (w.perm t) = .ok (e.rename w.perm) := by
  obtain ⟨e, he⟩ := ht.get
  exact ⟨e, he, w.entry t e he⟩

theorem has (ht : w.left.Has t) : w.right.Has (w.perm t) := by
  obtain ⟨e, -, he⟩ := w.get ht
  exact Registry.has_of_get he

/-- Only the first types have the handles of the first types. -/
theorem not_has_perm (ht : ¬R.Has t) : ¬R.Has (w.perm t) := by
  intro h
  have hfix : w.perm t = t := w.perm.injective (w.fixes _ h)
  exact ht (hfix ▸ h)

theorem hasKind {kind : TypeKind} (h : w.left.table.HasKind t kind) :
    w.right.table.HasKind (w.perm t) (kind.rename w.perm) := by
  obtain ⟨e, he, rfl⟩ := h
  exact ⟨_, w.entry t e he, rfl⟩

theorem hasKind_of_perm {kind : TypeKind} (ht : w.left.Has t)
    (h : w.right.table.HasKind (w.perm t) (kind.rename w.perm)) :
    w.left.table.HasKind t kind := by
  obtain ⟨e, he, he'⟩ := w.get ht
  obtain ⟨e', hget, hkind⟩ := h
  cases he'.symm.trans hget
  exact ⟨e, he, TypeKind.rename_injective _ hkind⟩

/-! ### Making types -/

/-- The first entry of a kind is the first entry on the other side. -/
theorem first {kind : TypeKind} {id id' : TypeId} (h : w.left.table.First kind id)
    (h' : w.right.table.First (kind.rename w.perm) id') : w.perm id = id' := by
  obtain ⟨e, he, hkind⟩ := h.1
  have himage := w.hasKind h.1
  have hle : id'.index ≤ (w.perm id).index := Nat.le_of_not_lt fun hlt => h'.2 _ hlt himage
  by_cases hid' : R.Has id'
  · -- A first type is the same on both sides, and the left side has none before `id`.
    have hfix := w.fixes id' hid'
    have hleft : w.left.table.HasKind id' kind :=
      w.hasKind_of_perm (hid'.grow w.leftMakes.grows) (hfix.symm ▸ h'.1)
    have hge : id.index ≤ id'.index := Nat.le_of_not_lt fun hlt => h.2 _ hlt hleft
    have hid : R.Has id := Nat.lt_of_le_of_lt hge hid'
    have hindex : id.index = id'.index := Nat.le_antisymm hge (w.fixes id hid ▸ hle)
    rw [w.fixes id hid]
    exact congrArg TypeId.mk hindex
  · have hid : ¬R.Has id := by
      intro hid
      rw [w.fixes id hid] at hle
      exact hid' (Nat.lt_of_le_of_lt hle hid)
    exact w.rightMakesFrom.unique (not_has_perm hid) hid' himage h'.1

/-- The left registry gets a type that the right one has at `j`. The permutation sends the new
handle to `j`, and all others where it did. -/
theorem extend {flags : TypeFlags} {name space : String} {kind : TypeKind} {j : TypeId}
    {r' : Registry} (hs : w.left.Standard flags name space kind)
    (hp : ∀ p ∈ kind.parents, w.left.Has p)
    (hmakes : R.Makes (w.left.addType flags name space kind)) (hmakes' : R'.Makes r')
    (hgrows : w.right.Grows r') (hfree : ∀ t, w.left.Has t → w.perm t ≠ j)
    (hj : r'.table.get j = .ok ⟨j, flags, name, space, kind.rename w.perm⟩)
    (hcovers : ∀ t, r'.Has t → w.right.Has t ∨ t = j) :
    ∃ w₁ : Pairing R R', w.Le w₁ ∧ w₁.left = w.left.addType flags name space kind ∧
      w₁.right = r' ∧ w₁.perm w.left.table.next = j := by
  let ρ : Equiv.Perm TypeId :=
    w.perm.trans (Equiv.swap (w.perm w.left.table.next) j)
  have hgrowsLeft := Registry.grows_addType w.left flags name space kind
  have hnew : ρ w.left.table.next = j := by
    rw [Equiv.trans_apply, Equiv.swap_apply_left]
  have hold (t : TypeId) (ht : w.left.Has t) : ρ t = w.perm t := by
    have hne : t ≠ w.left.table.next := by
      rintro rfl
      exact Nat.lt_irrefl _ ht
    rw [Equiv.trans_apply, Equiv.swap_apply_of_ne_of_ne (w.perm.injective.ne hne) (hfree t ht)]
  have hkind : kind.rename ρ = kind.rename w.perm :=
    TypeKind.rename_congr (fun p h => hold p (hp p h)) (by simp [hs.signature])
  refine ⟨⟨w.left.addType flags name space kind, r', ρ, w.valid, w.ahead, hmakes, hmakes',
    fun t ht => ?_, fun t e he => ?_, fun t ht => ?_⟩, ⟨hgrowsLeft, hgrows, hold⟩, rfl, rfl, hnew⟩
  · rw [hold t (ht.grow w.leftMakes.grows), w.fixes t ht]
  · rcases Registry.get_addType he with he | ⟨rfl, rfl⟩
    · have ht := Registry.has_of_get he
      have hrename : e.rename ρ = e.rename w.perm := by
        have hid : ρ e.id = w.perm e.id := hold _ (w.leftValid.own t e he ▸ ht)
        have hkind : e.kind.rename ρ = e.kind.rename w.perm :=
          TypeKind.rename_congr (fun p h => hold p (w.leftValid.has_parent he h))
            fun s h => hold s (w.leftValid.signature t e he s h)
        rw [TypeEntry.rename, hid, hkind]
        rfl
      rw [hold t ht, hrename]
      exact TypeTable.get_mono hgrows.table (w.entry t e he)
    · rw [hnew, TypeEntry.rename, hnew, hkind]
      exact hj
  · rcases hcovers t ht with ht | rfl
    · refine (w.covers t ht).imp_right fun ⟨s, hs, hst⟩ => ?_
      exact ⟨s, hs.grow hgrowsLeft, (hold s hs).trans hst⟩
    · exact .inr ⟨w.left.table.next, Registry.has_of_get (TypeTable.get_next ..), hnew⟩

/-- The flags and names of an instance or an array are the same on both sides. -/
theorem standard {flags flags' : TypeFlags} {name name' space space' : String} {kind : TypeKind}
    (hs : w.left.Standard flags name space kind)
    (hs' : w.right.Standard flags' name' space' (kind.rename w.perm)) :
    flags' = flags ∧ name' = name ∧ space' = space := by
  cases kind with
  | generic definition args =>
    obtain ⟨e, he, rfl, rfl, rfl⟩ := hs
    obtain ⟨e', he', rfl, rfl, rfl⟩ := hs'
    cases (w.entry definition e he).symm.trans he'
    exact ⟨rfl, rfl, rfl⟩
  | array element rank =>
    obtain ⟨rfl, rfl, rfl⟩ := hs
    exact hs'
  | builtin | declared | parameter => cases hs

/-- Where a type is made on both sides, the permutation can be extended to it. -/
theorem make {flags : TypeFlags} {name space : String} (kind : TypeKind) {id id' : TypeId}
    {r r' : Registry} (hs : w.left.Standard flags name space kind)
    (hp : ∀ p ∈ kind.parents, w.left.Has p) (hmakes : R.Makes r) (hmakes' : R'.Makes r')
    (hl : w.left.Ensures flags name space kind id r)
    (hr : w.right.Ensures flags name space (kind.rename w.perm) id' r') :
    ∃ w₁ : Pairing R R', w.Le w₁ ∧ w₁.left = r ∧ w₁.right = r' ∧ w₁.perm id = id' := by
  cases hl with
  | found h =>
    cases hr with
    | found h' => exact ⟨w, .refl w, rfl, rfl, w.first h h'⟩
    | added hnone => exact absurd (w.hasKind h.1) (hnone _)
  | added hnone =>
    cases hr with
    | found h' =>
      have hfree (t : TypeId) (ht : w.left.Has t) : w.perm t ≠ id' := by
        rintro rfl
        exact hnone t (w.hasKind_of_perm ht h'.1)
      have hid' : ¬R.Has id' := fun h =>
        hfree id' (h.grow w.leftMakes.grows) (w.fixes id' h)
      obtain ⟨e, he, hkind⟩ := h'.1
      obtain ⟨hflags, hname, hspace⟩ :=
        w.standard hs (hkind ▸ w.rightMakesFrom.standard hid' he)
      have hown := w.rightValid.own id' e he
      refine w.extend hs hp hmakes hmakes' (.refl _) hfree ?_ fun t => .inl
      obtain ⟨id, flags, name, space, kind⟩ := e
      simp only at hflags hname hspace hown hkind
      subst hflags hname hspace hown hkind
      exact he
    | added hnone' =>
      refine w.extend hs hp hmakes hmakes' (Registry.grows_addType ..) (fun t ht => ?_)
        (TypeTable.get_next ..) fun t ht => ?_
      · exact fun h => Nat.lt_irrefl _ (h ▸ w.has ht : w.right.Has w.right.table.next)
      · obtain ⟨e, he⟩ := ht.get
        rcases Registry.get_addType he with he | ⟨rfl, -⟩
        · exact .inl (Registry.has_of_get he)
        · exact .inr rfl

end Pairing

end Dynascript
