import Dynascript.Proofs.Types.Growth
import Dynascript.Types.Bootstrap

/-!
# Registries that a program can build

A registry starts as `Registry.bootstrap` and changes by operations on handles that it
gave out (`Registry.Built`). Which operations are allowed is a parameter : a user who adds
no members to the types every program starts with (`RegistryOp.SparesBootstrap`) keeps
those types as they were (`Built.extends_bootstrap`).
-/

namespace Dynascript

/-- The types that a member's signature names. -/
def Member.handles (m : Member) : List TypeId :=
  match m.kind with
  | .field type => [type]
  | .method parameters result => parameters ++ [result]
  | .indexer key value => [key, value]

namespace RegistryOp

/-- The types that an operation is given. -/
def handles : RegistryOp → List TypeId
  | declare d => d.base.toList ++ d.interfaces ++ d.members.flatMap Member.handles
  | addMembers id members => id :: members.flatMap Member.handles
  | makeGeneric definition args => definition :: args
  | makeArray element _ => [element]

/-- The registry after an operation. -/
def run (r : Registry) : RegistryOp → Except Dangling Registry
  | declare d => .ok (r.declare d).2
  | addMembers id members => r.addMembers id members
  | makeGeneric definition args => do
    let made ← r.makeGeneric definition args
    return made.2
  | makeArray element rank => .ok (r.makeArray element rank).2

/-- The operation adds no members to a type of the first registry. -/
def SparesBootstrap : RegistryOp → Prop
  | addMembers id _ => TypeId.typeofHelper.index < id.index
  | _ => True

end RegistryOp

namespace Registry

/-- The registries that allowed operations make of the first one, each given types that
the registry it changes has given out. -/
inductive Built (root : String) (allowed : RegistryOp → Prop) : Registry → Prop
  | start : Built root allowed (bootstrap root)
  | step {r r' : Registry} (op : RegistryOp) : Built root allowed r → allowed op →
      (∀ id ∈ op.handles, id.index < r.size) → op.run r = .ok r' → Built root allowed r'

/-- A change behind the end of an older table leaves the older table as it was. -/
theorem extends_addMembers {t₀ t t' : TypeTable} (h : t₀.Extends t) {id : TypeId}
    (hid : t₀.size ≤ id.index) {members : List Member}
    (hadd : t.addMembers id members = .ok t') : t₀.Extends t' := by
  obtain ⟨entry, -, hadd⟩ := bind_eq_ok.1 hadd
  cases hk : entry.kind with
  | declared body =>
    simp only [hk] at hadd
    cases hadd
    obtain ⟨added, hadded⟩ := h
    simp only [TypeTable.Extends, Array.toList_setIfInBounds, ← hadded]
    rw [List.set_append_right _ _ (by simpa [TypeTable.size] using hid)]
    exact List.prefix_append _ _
  | builtin => simp only [hk] at hadd; cases hadd; exact h
  | array element rank => simp only [hk] at hadd; cases hadd; exact h
  | generic definition args => simp only [hk] at hadd; cases hadd; exact h
  | parameter index => simp only [hk] at hadd; cases hadd; exact h

theorem addClass_table (r : Registry) (d : ClassDecl) :
    (r.addClass d).table = r.table.add d.flags d.name d.space (.declared d.body) := by
  unfold addClass
  dsimp only
  split <;> rfl

/-! ## The first registry -/

/-- The types of the first registry but for the last one, whose namespace varies. -/
def runtimeTable (root : String) : TypeTable :=
  ((empty root).hostTypes.typeParameters.runtimeInterfaces.runtimeSequences
    |>.stringDictionary
    |>.runtimeClasses).table

theorem bootstrap_table (root : String) :
    ∃ flags kind, (bootstrap root).table = (runtimeTable root).add flags typeofClass root kind :=
  ⟨_, _, addClass_table _ _⟩

/-- These types are the same under every root, so facts about them can be evaluated. -/
theorem runtimeTable_eq (root : String) : runtimeTable root = runtimeTable "" := by
  have builtin (r : Registry) (name : String) (flags : TypeFlags) :
      (r.addBuiltin name flags).table = r.table.add flags name "" .builtin := rfl
  have other (r : Registry) (flags : TypeFlags) (name space : String) (kind : TypeKind) :
      (r.addType flags name space kind).table = r.table.add flags name space kind := rfl
  simp only [runtimeTable, hostTypes, typeParameters, runtimeInterfaces, runtimeSequences,
    stringDictionary, runtimeClasses, addClass_table, builtin, other, empty]

theorem size_bootstrap (root : String) :
    (bootstrap root).table.size = TypeId.typeofHelper.index + 1 := by
  obtain ⟨flags, kind, h⟩ := bootstrap_table root
  have hsize : (bootstrap root).table.size = (runtimeTable root).size + 1 := by
    rw [h]
    exact Array.size_push ..
  rw [hsize, runtimeTable_eq]
  rfl

theorem runtimeTable_extends (root : String) :
    (runtimeTable "").Extends (bootstrap root).table := by
  obtain ⟨flags, kind, h⟩ := bootstrap_table root
  rw [h, ← runtimeTable_eq root]
  exact TypeTable.extends_add ..

/-! ## Every built registry -/

/-- No allowed operation changes the types of the first registry. -/
theorem Built.extends_bootstrap {root : String} {r : Registry}
    (h : Built root RegistryOp.SparesBootstrap r) : (bootstrap root).table.Extends r.table := by
  induction h with
  | start => exact .refl _
  | @step r r' op _ hop _ hrun ih =>
    cases op with
    | declare d =>
      cases hrun
      show TypeTable.Extends _ (r.addClass d).table
      rw [addClass_table]
      exact ih.trans (TypeTable.extends_add ..)
    | addMembers id members =>
      obtain ⟨table, htable, hrun⟩ := bind_eq_ok.1 hrun
      cases hrun
      exact extends_addMembers ih (size_bootstrap root ▸ hop) htable
    | makeGeneric definition args =>
      obtain ⟨made, hmade, hrun⟩ := bind_eq_ok.1 hrun
      cases hrun
      exact ih.trans (grows_makeGeneric hmade).table
    | makeArray element rank =>
      cases hrun
      exact ih.trans (grows_makeArray r element rank).table

end Registry

end Dynascript
