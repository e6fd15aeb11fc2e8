import Dynascript.Proofs.Syntax.Below
import Mathlib.Data.List.Forall2
import Mathlib.Data.List.Lex

/-!
# The order of a walk

A node in a tree has an address : the numbers of the children on the way down to it (`Node.at?`).
`Node.preorder` lists the addresses of a tree, each before those below it, without what is below
an address that is skipped. Addresses in this order increase (`pairwise_preorder`), and an address
is missing only if one above it is skipped (`mem_preorder`).

A visitor may ask for a skip or a halt at each node, and decide by all it has seen. `Follows` says
that it is shown the nodes of a list of addresses in turn, up to the first where it asks for a halt,
and that its requests are the given ones. A walk follows the preorder that its own requests prune
(`walk_follows`) : a skip is used up before the next node is shown, so the flow is fresh again
whenever a child is entered. `walk_visits_preorder` says what this means for the calls of the
visitor and for the flow that is left.
-/

namespace Dynascript

/-- The way from a node down to one below it : at each step the number of a child. -/
abbrev Address := List Nat

/-! ## Preorder -/

namespace Node

/-- The node at an address. -/
def at? : Node → Address → Option Node
  | n, [] => some n
  | n, i :: rest => n.children[i]?.bind fun c => at? c rest

/-- The addresses of a tree, each before those below it, children in written order. What is below
an address where `skip` holds is left out. -/
def preorder (skip : Address → Bool) (n : Node) : List Address :=
  [] :: if skip [] then [] else
    n.children.attach.zipIdx.flatMap fun child =>
      (preorder (fun a => skip (child.2 :: a)) child.1.1).map (child.2 :: ·)
termination_by sizeOf n
decreasing_by exact sizeOf_lt_of_mem_children child.1.2

/-- The addresses of trees side by side. -/
def forest (skip : Address → Bool) (nodes : List Node) : List Address :=
  nodes.zipIdx.flatMap fun child =>
    (child.1.preorder fun a => skip (child.2 :: a)).map (child.2 :: ·)

variable {skip : Address → Bool} {n : Node} {a b : Address}

theorem preorder_eq (skip : Address → Bool) (n : Node) :
    n.preorder skip = [] :: if skip [] then [] else forest skip n.children := by
  have hattach : n.children.zipIdx = n.children.attach.zipIdx.map fun p => (p.1.1, p.2) := by
    conv_lhs => rw [← List.attach_map_subtype_val n.children, List.zipIdx_map]
    rfl
  rw [preorder, forest, hattach, List.flatMap_map]

@[simp]
theorem forest_nil (skip : Address → Bool) : forest skip [] = [] := rfl

/-- Behind the first tree the others have the addresses that they have alone, one child on. -/
theorem forest_cons (skip : Address → Bool) (c : Node) (cs : List Node) :
    forest skip (c :: cs) = (c.preorder fun a => skip (0 :: a)).map (0 :: ·) ++
      (forest (fun a => skip (a.modifyHead (· + 1))) cs).map (List.modifyHead (· + 1)) := by
  rw [forest, List.zipIdx_cons, List.flatMap_cons, forest, List.map_flatMap,
    List.zipIdx_succ, List.flatMap_map]
  simp only [List.map_map]
  rfl

theorem mem_forest {cs : List Node} :
    a ∈ forest skip cs ↔ ∃ i rest, a = i :: rest ∧
      ∃ c, cs[i]? = some c ∧ rest ∈ c.preorder fun a => skip (i :: a) := by
  simp only [forest, List.mem_flatMap, List.mem_map, Prod.exists, List.mem_zipIdx_iff_getElem?]
  constructor
  · rintro ⟨c, i, hc, rest, hrest, rfl⟩
    exact ⟨i, rest, rfl, c, hc, hrest⟩
  · rintro ⟨i, rest, rfl, c, hc, hrest⟩
    exact ⟨c, i, hc, rest, hrest, rfl⟩

/-- An address of the tree is left out only for a skip above it. -/
theorem mem_preorder : a ∈ n.preorder skip ↔
    (n.at? a).isSome = true ∧ ∀ b, b <+: a → b ≠ a → skip b = false := by
  induction a generalizing n skip with
  | nil => simp +contextual [preorder_eq, at?]
  | cons i rest ih =>
    have hprefixes : (∀ b, b <+: i :: rest → b ≠ i :: rest → skip b = false) ↔
        skip [] = false ∧ ∀ b, b <+: rest → b ≠ rest → skip (i :: b) = false := by
      simp only [List.prefix_cons_iff]
      constructor
      · intro h
        exact ⟨h [] (.inl rfl) (by simp), fun b hb hne => h _ (.inr ⟨b, rfl, hb⟩) (by simpa)⟩
      · rintro ⟨hroot, h⟩ b (rfl | ⟨b, rfl, hb⟩) hne
        · exact hroot
        · exact h b hb (by simpa using hne)
    rw [hprefixes, preorder_eq, at?]
    cases hc : n.children[i]? with
    | none => cases hs : skip [] <;> simp [mem_forest, hc]
    | some c => cases hs : skip [] <;> simp [mem_forest, hc, ih]

/-- Above an address of the tree there are addresses of the tree. -/
theorem at?_isSome_above (hb : b <+: a) (ha : (n.at? a).isSome = true) :
    (n.at? b).isSome = true := by
  induction b generalizing n a with
  | nil => rfl
  | cons i rest ih =>
    obtain ⟨a, rfl, hrest⟩ := (List.cons_prefix_iff).1 hb
    rw [at?] at ha ⊢
    cases hc : n.children[i]? with
    | none => simp [hc] at ha
    | some c => exact ih hrest (by simpa [hc] using ha)

/-- The skip for which an address is left out is at one that is not. -/
theorem skipped_of_not_mem_preorder : ∀ {a : Address}, (n.at? a).isSome = true →
    a ∉ n.preorder skip → ∃ b ∈ n.preorder skip, skip b = true ∧ b <+: a ∧ b ≠ a
  | a, ha, hout => by
    have habove : ∃ b, b <+: a ∧ b ≠ a ∧ skip b = true := by
      simpa [mem_preorder, ha] using hout
    obtain ⟨b, hb, hne, hskip⟩ := habove
    have hshorter : b.length < a.length :=
      Nat.lt_of_le_of_ne hb.length_le fun h => hne (hb.eq_of_length h)
    by_cases hmem : b ∈ n.preorder skip
    · exact ⟨b, hmem, hskip, hb, hne⟩
    · obtain ⟨c, hc, hskip, hcb, -⟩ :=
        skipped_of_not_mem_preorder (at?_isSome_above hb ha) hmem
      refine ⟨c, hc, hskip, hcb.trans hb, fun hca => ?_⟩
      exact Nat.not_le_of_lt hshorter (hca ▸ hcb.length_le)
termination_by a => a.length

/-- Preorder is the order of the addresses as words, so none comes twice. -/
theorem pairwise_preorder (skip : Address → Bool) (n : Node) :
    (n.preorder skip).Pairwise (· < ·) := by
  induction n using below_induction generalizing skip with
  | step n ih =>
    have hnumbers : n.children.zipIdx.Pairwise fun c d => c.2 < d.2 := by
      rw [← List.pairwise_map, List.zipIdx_map_snd]
      exact List.pairwise_lt_range'
    have hforest : (forest skip n.children).Pairwise (· < ·) := by
      refine List.pairwise_flatMap.2 ⟨fun child hchild => ?_, hnumbers.imp fun hlt => ?_⟩
      · refine List.pairwise_map.2 ((ih _ (.child ?_) _).imp fun hab => ?_)
        · exact List.mem_of_getElem? (List.mem_zipIdx_iff_getElem?.1 hchild)
        · exact List.cons_lt_cons_iff.2 (.inr ⟨rfl, hab⟩)
      · intro a ha b hb
        obtain ⟨a, -, rfl⟩ := List.mem_map.1 ha
        obtain ⟨b, -, rfl⟩ := List.mem_map.1 hb
        exact List.cons_lt_cons_iff.2 (.inl hlt)
    rw [preorder_eq, List.pairwise_cons]
    split
    · exact ⟨nofun, .nil⟩
    · refine ⟨fun a ha => ?_, hforest⟩
      obtain ⟨i, rest, rfl, -⟩ := mem_forest.1 ha
      exact List.nil_lt_cons _ _

end Node

/-! ## Lists that are cut -/

section Cut

variable {α : Type} {p : α → Bool}

/-- A list up to the first element that passes, which is kept. -/
def throughFirst (p : α → Bool) : List α → List α
  | [] => []
  | a :: l => a :: if p a then [] else throughFirst p l

theorem throughFirst_isPrefix (p : α → Bool) : ∀ l : List α, throughFirst p l <+: l
  | [] => List.prefix_rfl
  | a :: l => by
    rw [throughFirst, List.prefix_cons_inj]
    split
    · exact List.nil_prefix
    · exact throughFirst_isPrefix p l

/-- What is cut off comes behind an element that passes. -/
theorem passes_of_not_mem_throughFirst {r : α → α → Prop} {a : α} :
    ∀ {l : List α}, l.Pairwise r → a ∈ l → a ∉ throughFirst p l →
      ∃ b ∈ throughFirst p l, p b = true ∧ r b a
  | [], _, ha, _ => absurd ha List.not_mem_nil
  | b :: l, hl, ha, hcut => by
    obtain ⟨hb, hl⟩ := List.pairwise_cons.1 hl
    rw [throughFirst, List.mem_cons, not_or] at hcut
    have ha : a ∈ l := (List.mem_cons.1 ha).resolve_left hcut.1
    cases hp : p b with
    | true => exact ⟨b, by simp [throughFirst], hp, hb a ha⟩
    | false =>
      simp only [hp, Bool.false_eq_true, if_false] at hcut
      obtain ⟨c, hc, hpc, hca⟩ := passes_of_not_mem_throughFirst hl ha hcut.2
      exact ⟨c, by simp [throughFirst, hp, hc], hpc, hca⟩

end Cut

/-! ## Walks -/

variable {σ : Type}

namespace Visitor

/-- Show nodes to the visitor one after the other : what it asks for at each, and its state at the
end. -/
def view (v : Visitor σ) : σ → List Node → List Request × σ
  | s, [] => ([], s)
  | s, n :: rest =>
    let after := view v (v.visit n s).2 rest
    ((v.visit n s).1 :: after.1, after.2)

/-- The visitor with a record of each call : the node and what was asked for there. -/
def recording (v : Visitor σ) : Visitor (σ × List (Node × Request)) where
  visit n s := ((v.visit n s.1).1, (v.visit n s.1).2, s.2 ++ [(n, (v.visit n s.1).1)])
  descends := v.descends

theorem view_recording (v : Visitor σ) (nodes : List Node) (s : σ) (calls : List (Node × Request)) :
    v.recording.view (s, calls) nodes =
      ((v.view s nodes).1, (v.view s nodes).2, calls ++ nodes.zip (v.view s nodes).1) := by
  induction nodes generalizing s calls with
  | nil => simp [view]
  | cons n rest ih =>
    rw [view, ih, view]
    simp [recording]

/-- The visitor is shown the nodes at the addresses in turn, up to the first where it asks for a
halt. Its requests are those that `asked` tells. -/
inductive Follows (v : Visitor σ) (tree : Address → Option Node) (asked : Address → Request) :
    List Address → σ → σ × Flow → Prop
  | done {s : σ} : Follows v tree asked [] s (s, {})
  | halt {a : Address} {rest : List Address} {n : Node} {s : σ} (hn : tree a = some n)
      (hasked : (v.visit n s).1 = asked a) (hhalt : (asked a).halt = true) :
      Follows v tree asked (a :: rest) s ((v.visit n s).2, { halted := true })
  | next {a : Address} {rest : List Address} {n : Node} {s : σ} {out : σ × Flow}
      (hn : tree a = some n) (hasked : (v.visit n s).1 = asked a)
      (hhalt : (asked a).halt = false) (hrest : Follows v tree asked rest (v.visit n s).2 out) :
      Follows v tree asked (a :: rest) s out

variable {v : Visitor σ} {tree : Address → Option Node} {asked : Address → Request}
  {order later : List Address} {s s' : σ} {out : σ × Flow}

/-- A walk that has come to the end of its list goes on with another. -/
theorem Follows.append (h : Follows v tree asked order s out) (hout : out.2.halted = false)
    {out' : σ × Flow} (h' : Follows v tree asked later out.1 out') :
    Follows v tree asked (order ++ later) s out' := by
  induction h with
  | done => exact h'
  | halt hn hasked hhalt => cases hout
  | next hn hasked hhalt _ ih => exact .next hn hasked hhalt (ih hout h')

/-- A walk that was halted sees nothing of what is added. -/
theorem Follows.append_of_halted (h : Follows v tree asked order s out)
    (hout : out.2.halted = true) (later : List Address) :
    Follows v tree asked (order ++ later) s out := by
  induction h with
  | done => cases hout
  | halt hn hasked hhalt => exact .halt hn hasked hhalt
  | next hn hasked hhalt _ ih => exact .next hn hasked hhalt (ih hout)

theorem Follows.map {f : Address → Address}
    (h : Follows v (fun a => tree (f a)) (fun a => asked (f a)) order s out) :
    Follows v tree asked (order.map f) s out := by
  induction h with
  | done => exact .done
  | halt hn hasked hhalt => exact .halt hn hasked hhalt
  | next hn hasked hhalt _ ih => exact .next hn hasked hhalt ih

/-- No skip is left, so a walk that was not halted leaves a fresh flow. -/
theorem Follows.flow_eq (h : Follows v tree asked order s out) (hout : out.2.halted = false) :
    out.2 = {} := by
  induction h with
  | done => rfl
  | halt hn hasked hhalt => cases hout
  | next hn hasked hhalt _ ih => exact ih hout

/-- The calls and what is left, told from the list that is cut at the first halt. -/
theorem Follows.calls (h : Follows v tree asked order s out) :
    let seen := throughFirst (fun a => (asked a).halt) order
    ∃ nodes, List.Forall₂ (fun a n => tree a = some n) seen nodes ∧
      v.view s nodes = (seen.map asked, out.1) ∧
      out.2 = ⟨false, seen.any fun a => (asked a).halt⟩ := by
  induction h with
  | done => exact ⟨[], .nil, rfl, rfl⟩
  | @halt a rest n s hn hasked hhalt =>
    simp only [throughFirst, hhalt, if_true]
    exact ⟨[n], .cons hn .nil, by simp [view, hasked], by simp [hhalt]⟩
  | @next a rest n s out hn hasked hhalt _ ih =>
    obtain ⟨nodes, hnodes, hview, hout⟩ := ih
    simp only [throughFirst, hhalt, Bool.false_eq_true, if_false]
    exact ⟨n :: nodes, .cons hn hnodes, by simp [view, hasked, hview], by simp [hhalt, hout]⟩

end Visitor

namespace Node

variable {v : Visitor σ}

/-- Walk over trees side by side. -/
def walkAll (v : Visitor σ) (nodes : List Node) (start : σ × Flow) : σ × Flow :=
  nodes.foldl (fun now child => if now.2.halted then now else child.walk v now.1 now.2) start

theorem walk_eq (v : Visitor σ) (n : Node) (s : σ) (flow : Flow) :
    n.walk v s flow =
      let now := flow.ask (v.visit n s).1
      if !v.descends then ((v.visit n s).2, now)
      else if now.skip then ((v.visit n s).2, { now with skip := false })
      else walkAll v n.children ((v.visit n s).2, now) := by
  rw [walk]
  have hfold (start : σ × Flow) : n.children.attach.foldl
      (fun (now : σ × Flow) child => if now.2.halted then now else child.1.walk v now.1 now.2)
      start = walkAll v n.children start :=
    List.foldl_attach (f := fun (now : σ × Flow) (child : Node) =>
      if now.2.halted then now else child.walk v now.1 now.2)
  simp only [← hfold]

theorem walkAll_of_halted (v : Visitor σ) (nodes : List Node) {start : σ × Flow}
    (h : start.2.halted = true) : walkAll v nodes start = start := by
  induction nodes with
  | nil => rfl
  | cons c cs ih => rw [walkAll, List.foldl_cons, if_pos h, ← walkAll, ih]

/-- Keeping a record changes nothing else. -/
theorem walk_recording (v : Visitor σ) (n : Node) (s : σ) (calls : List (Node × Request))
    (flow : Flow) :
    ∃ calls', n.walk v.recording (s, calls) flow =
      (((n.walk v s flow).1, calls'), (n.walk v s flow).2) := by
  induction n using below_induction generalizing s calls flow with
  | step n ih =>
    have side : ∀ (cs : List Node), (∀ c ∈ cs, c ∈ n.children) → ∀ s calls flow, ∃ calls',
        walkAll v.recording cs ((s, calls), flow) =
          (((walkAll v cs (s, flow)).1, calls'), (walkAll v cs (s, flow)).2) := by
      intro cs
      induction cs with
      | nil => exact fun _ s calls flow => ⟨calls, rfl⟩
      | cons c cs ihcs =>
        intro hcs s calls flow
        obtain ⟨hc, hcs⟩ := List.forall_mem_cons.1 hcs
        simp only [walkAll, List.foldl_cons]
        split
        · exact ihcs hcs s calls flow
        · obtain ⟨calls', hwalk⟩ := ih c (.child hc) s calls flow
          rw [hwalk]
          exact ihcs hcs _ _ _
    have hvisit : v.recording.visit n (s, calls) = ((v.visit n s).1, (v.visit n s).2,
        calls ++ [(n, (v.visit n s).1)]) := rfl
    have hdescends : v.recording.descends = v.descends := rfl
    rw [walk_eq, walk_eq, hvisit, hdescends]
    cases v.descends with
    | false => exact ⟨_, rfl⟩
    | true =>
      cases hskip : (flow.ask (v.visit n s).1).skip with
      | true => simp [hskip]
      | false => simpa [hskip] using side n.children (fun _ => id) _ _ _

/-- What is asked for in trees side by side : in the first one, and in those after it. -/
def joined (first others : Address → Request) : Address → Request
  | 0 :: rest => first rest
  | (i + 1) :: rest => others (i :: rest)
  | [] => others []

theorem joined_zero (first others : Address → Request) (a : Address) :
    joined first others (0 :: a) = first a :=
  rfl

theorem joined_next (first others : Address → Request) (a : Address) :
    joined first others (a.modifyHead (· + 1)) = others a := by
  cases a <;> rfl

/-- Trees side by side are followed one after the other, if each of them is followed alone. -/
theorem walkAll_follows {cs : List Node} (first : Request) (tree : Address → Option Node)
    (htree : ∀ i rest, tree (i :: rest) = cs[i]?.bind fun c => c.at? rest)
    (h : ∀ c ∈ cs, ∀ s, ∃ asked : Address → Request,
      v.Follows c.at? asked (c.preorder fun a => (asked a).skip) s (c.walk v s {})) (s : σ) :
    ∃ asked : Address → Request, asked [] = first ∧
      v.Follows tree asked (forest (fun a => (asked a).skip) cs) s (walkAll v cs (s, {})) := by
  -- What is asked for in the first tree and in the others is known only one after the other, since
  -- the visitor remembers; `joined` makes one function of it.
  induction cs generalizing tree s with
  | nil => exact ⟨fun _ => first, rfl, .done⟩
  | cons c cs ih =>
    obtain ⟨hc, hcs⟩ := List.forall_mem_cons.1 h
    obtain ⟨asked, hfollows⟩ := hc s
    have hwalk : walkAll v (c :: cs) (s, {}) = walkAll v cs (c.walk v s {}) := rfl
    rw [hwalk]
    have htree₀ : (fun a => tree (0 :: a)) = c.at? := funext fun rest => htree 0 rest
    have hfirst (others : Address → Request) : v.Follows tree (joined asked others)
        ((c.preorder fun a => (asked a).skip).map (0 :: ·)) s (c.walk v s {}) :=
      .map (by simpa only [htree₀, joined_zero] using hfollows)
    cases hhalted : (c.walk v s {}).2.halted with
    | true =>
      refine ⟨joined asked fun _ => first, rfl, ?_⟩
      rw [walkAll_of_halted v cs hhalted, forest_cons]
      exact (hfirst _).append_of_halted hhalted _
    | false =>
      obtain ⟨others, hothers, hrest⟩ := ih (fun a => tree (a.modifyHead (· + 1)))
        (fun i rest => htree (i + 1) rest) hcs (c.walk v s {}).1
      refine ⟨joined asked others, hothers, ?_⟩
      rw [forest_cons]
      refine (hfirst _).append hhalted (.map ?_)
      have hfresh : c.walk v s {} = ((c.walk v s {}).1, {}) :=
        Prod.ext rfl (hfollows.flow_eq hhalted)
      simp only [joined_next]
      exact hfresh ▸ hrest

/-- A walk follows the preorder that is pruned where the visitor asks for a skip. -/
theorem walk_follows (hv : v.descends = true) (n : Node) (s : σ) :
    ∃ asked : Address → Request,
      v.Follows n.at? asked (n.preorder fun a => (asked a).skip) s (n.walk v s {}) := by
  induction n using below_induction generalizing s with
  | step n ih =>
    obtain ⟨asked, hfirst, hchildren⟩ := walkAll_follows (v.visit n s).1 n.at?
      (fun _ _ => rfl) (fun c hc => ih c (.child hc)) (v.visit n s).2
    refine ⟨asked, ?_⟩
    have hroot : n.at? [] = some n := rfl
    have hhalt : (asked []).halt = (v.visit n s).1.halt := by rw [hfirst]
    rw [preorder_eq, walk_eq, hv]
    simp only [Flow.ask, hfirst, Bool.false_or, Bool.not_true, Bool.false_eq_true, if_false]
    cases hskipped : (v.visit n s).1.skip <;> cases hhalted : (v.visit n s).1.halt <;>
      rw [hhalted] at hhalt
    case false.false => exact .next hroot hfirst.symm hhalt hchildren
    case false.true =>
      simp only [Bool.false_eq_true, if_false, walkAll_of_halted]
      exact .halt hroot hfirst.symm hhalt
    case true.false => exact .next hroot hfirst.symm hhalt .done
    case true.true => exact .halt hroot hfirst.symm hhalt

end Node

/-- A node that is not shown has a skip above it or a halt before it. -/
theorem Node.asked_of_not_seen {skip halt : Address → Bool} {n : Node} {a : Address}
    (ha : (n.at? a).isSome = true) (hout : a ∉ throughFirst halt (n.preorder skip)) :
    let seen := throughFirst halt (n.preorder skip)
    (∃ b ∈ seen, skip b = true ∧ b <+: a ∧ b ≠ a) ∨ ∃ b ∈ seen, halt b = true ∧ b < a := by
  have hsorted := pairwise_preorder skip n
  by_cases hmem : a ∈ n.preorder skip
  · exact .inr (passes_of_not_mem_throughFirst hsorted hmem hout)
  · obtain ⟨b, hb, hskip, hba, hne⟩ := skipped_of_not_mem_preorder ha hmem
    by_cases hseen : b ∈ throughFirst halt (n.preorder skip)
    · exact .inl ⟨b, hseen, hskip, hba, hne⟩
    · obtain ⟨c, hc, hhalt, hcb⟩ := passes_of_not_mem_throughFirst hsorted hb hseen
      exact .inr ⟨c, hc, hhalt, lt_of_lt_of_le hcb (not_lt.1 hba.le)⟩

/-- The law of walks. Let a visitor that lets walks go down start with a fresh flow. There are
requests, one for each address, such that the nodes it is shown are those of the preorder, less
all that is below a skip, up to the first halt; they are shown in this order, each once, and the
visitor's own answers to them are these requests. A node of the tree is left out only for a skip
above it or a halt before it. At the end no skip is pending, and the walk has stopped if and only
if the visitor asked for a halt. -/
theorem walk_visits_preorder {v : Visitor σ} (hv : v.descends = true) (n : Node) (s : σ) :
    ∃ asked : Address → Request,
      let seen := throughFirst (fun a => (asked a).halt) (n.preorder fun a => (asked a).skip)
      (∃ nodes final,
        List.Forall₂ (fun a m => n.at? a = some m) seen nodes ∧
        v.view s nodes = (seen.map asked, final) ∧
        n.walk v s {} = (final, ⟨false, seen.any fun a => (asked a).halt⟩) ∧
        n.walk v.recording (s, []) {} =
          ((final, nodes.zip (seen.map asked)), ⟨false, seen.any fun a => (asked a).halt⟩)) ∧
      seen.Pairwise (· < ·) ∧
      ∀ a, (n.at? a).isSome = true → a ∉ seen →
        (∃ b ∈ seen, (asked b).skip = true ∧ b <+: a ∧ b ≠ a) ∨
          ∃ b ∈ seen, (asked b).halt = true ∧ b < a := by
  obtain ⟨asked, hfollows⟩ := Node.walk_follows (v := v.recording) hv n (s, [])
  obtain ⟨nodes, hnodes, hview, hflow⟩ := hfollows.calls
  obtain ⟨calls, hwalk⟩ := n.walk_recording v s [] {}
  rw [v.view_recording, List.nil_append] at hview
  obtain ⟨hasked, hout⟩ := Prod.mk.inj hview
  refine ⟨asked, ⟨nodes, (v.view s nodes).2, hnodes, Prod.ext hasked rfl, ?_, ?_⟩, ?_, ?_⟩
  · rw [hwalk] at hout hflow
    exact Prod.ext (congrArg Prod.fst hout).symm hflow
  · exact Prod.ext (hasked ▸ hout.symm) hflow
  · exact (n.pairwise_preorder _).sublist (throughFirst_isPrefix _ _).sublist
  · exact fun a ha hout => Node.asked_of_not_seen ha hout

/-- A visitor that counts, with a skip at the second node and a halt at the fourth, on
`a.b in [c, d]` : the skip is for `a.b` and leaves out `a` alone, the halt at `c` leaves out `d`. -/
theorem counting_visitor_stops :
    let key : Expr := .member .origin (.name .origin "a") "b"
    let container : Expr := .array .origin [.name .origin "c", .name .origin "d"] none
    let n : Node := .expr (.isIn .origin key container)
    let v : Visitor Nat := { visit := fun _ k => (⟨k == 1, k == 3⟩, k + 1) }
    v.descends = true ∧ n.walk v.recording (0, []) {} =
      ((4, [(n, {}), (.expr key, { skip := true }), (.expr container, {}),
        (.expr (.name .origin "c"), { halt := true })]), ⟨false, true⟩) := by
  intro key container n v
  obtain ⟨asked, ⟨nodes, final, hnodes, hview, -, hwalk⟩, -⟩ :=
    walk_visits_preorder (v := v) rfl n 0
  have horder : n.preorder (fun a => (asked a).skip) = [] :: if (asked []).skip then [] else
      [0] :: ((if (asked [0]).skip then [] else [[0, 0]]) ++
        [1] :: if (asked [1]).skip then [] else [[1, 0], [1, 1]]) := by
    simp [n, key, container, Node.preorder_eq, Node.forest_cons, Node.children, Node.ofExpr,
      apply_ite (List.map _)]
  -- The visitor numbers its calls, so each request is known once those before it are.
  have hnext : ∀ k nodes a rest, v.view k nodes = (asked a :: rest, final) →
      asked a = ⟨k == 1, k == 3⟩ ∧ ∃ nodes, v.view (k + 1) nodes = (rest, final) := by
    intro k nodes a rest h
    cases nodes with
    | nil => simp [Visitor.view] at h
    | cons m nodes =>
      simp only [Visitor.view, v, Prod.mk.injEq, List.cons.injEq] at h
      exact ⟨h.1.1.symm, nodes, Prod.ext h.1.2 h.2⟩
  obtain ⟨hroot, rest, hview⟩ := hnext _ _ _ _ (by simpa [horder, throughFirst] using hview)
  simp [hroot, throughFirst] at hview
  obtain ⟨hkey, rest, hview⟩ := hnext _ _ _ _ hview
  simp [hkey, throughFirst] at hview
  obtain ⟨hcontainer, rest, hview⟩ := hnext _ _ _ _ hview
  simp [hcontainer, throughFirst] at hview
  obtain ⟨hfirst, rest, hview⟩ := hnext _ _ _ _ hview
  have hseen : throughFirst (fun a => (asked a).halt) (n.preorder fun a => (asked a).skip) =
      [[], [0], [1], [1, 0]] := by
    simp [horder, throughFirst, hroot, hkey, hcontainer, hfirst]
  have hfinal : final = 4 := by
    cases rest <;> simp_all [Visitor.view]
  have hshown : nodes = [n, .expr key, .expr container, .expr (.name .origin "c")] := by
    simpa [hseen, List.forall₂_cons_left_iff, Node.at?, n, container, Node.children,
      Node.ofExpr, eq_comm] using hnodes
  rw [hseen, hfinal, hshown] at hwalk
  exact ⟨rfl, by simpa [hroot, hkey, hcontainer, hfirst] using hwalk⟩

end Dynascript
