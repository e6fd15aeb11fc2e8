import Mathlib.Data.List.Basic

/-!
# Grouping of script expressions

Script text has no parentheses. Of an expression with names, member and element accesses,
assignments, `delete`, `typeof` and `in` (`Phrase`) the text keeps the order of the words only
(`Words`) : an operand with the operators before it and the accesses behind it, then `=` or `in`,
then the next operand. `Words.read` groups the words as a reader of the text does : accesses bind
closest, then `delete` and `typeof`, then `in` from the left, then assignments from the right.

Reading loses no words (`words_read`), so the words are determined by what they read as, which is
not always the expression they come from : `regroup_eq_iff` says that it is exactly if every part
binds at least as closely as its place asks (`Phrase.grouped`).
-/

namespace Dynascript.Script

/-- The operators that stand before their operand. -/
inductive UnaryOp where
  | delete
  | typeof
deriving DecidableEq

/-- An expression of accesses, assignments and the dynamic operators, without its places in the
source. -/
inductive Phrase where
  | name (name : String)
  | member (target : Phrase) (name : String)
  | element (target : Phrase) (args : List Phrase)
  | assign (target value : Phrase)
  | unary (op : UnaryOp) (operand : Phrase)
  | isIn (key container : Phrase)

mutual

/-- The words of an expression in order. Only the brackets of element accesses group. -/
inductive Words where
  | op (op : UnaryOp) (rest : Words)
  | name (name : String) (rest : Rest)

/-- What follows a name. -/
inductive Rest where
  | done
  | member (name : String) (rest : Rest)
  | element (args : List Words) (rest : Rest)
  | assign (rest : Words)
  | isIn (rest : Words)

end

namespace Phrase

mutual

/-- The words of an expression before the rest `k`. -/
def words : Phrase → Rest → Words
  | name n, k => .name n k
  | member target n, k => target.words (.member n k)
  | element target args, k => target.words (.element (wordsAll args) k)
  | assign target value, k => target.words (.assign (value.words k))
  | unary op operand, k => .op op (operand.words k)
  | isIn key container, k => key.words (.isIn (container.words k))

def wordsAll : List Phrase → List Words
  | [] => []
  | t :: ts => t.words .done :: wordsAll ts

end

/-- How closely an expression binds : an assignment least, an access most. -/
def level : Phrase → Nat
  | assign .. => 0
  | isIn .. => 1
  | unary .. => 2
  | name _ | member .. | element .. => 3

mutual

/-- Every part binds at least as closely as its place asks. -/
def grouped : Phrase → Bool
  | name _ => true
  | member target _ => 3 ≤ target.level && target.grouped
  | element target args => 3 ≤ target.level && target.grouped && groupedAll args
  | assign target value => 1 ≤ target.level && target.grouped && value.grouped
  | unary _ operand => 2 ≤ operand.level && operand.grouped
  | isIn key container =>
    1 ≤ key.level && key.grouped && (2 ≤ container.level && container.grouped)

def groupedAll : List Phrase → Bool
  | [] => true
  | t :: ts => t.grouped && groupedAll ts

end

end Phrase

/-! ## The reader -/

/-- What a reader has begun and not yet ended. -/
structure Begun where
  /-- The targets of assignments, the innermost first. -/
  targets : List Phrase := []
  /-- What stands before `in`. -/
  key : Option Phrase := none
  /-- Operators before the operand, the innermost first. -/
  ops : List UnaryOp := []

namespace Begun

/-- The operand `t` with what binds closer than an assignment. -/
def operand (b : Begun) (t : Phrase) : Phrase :=
  let t := b.ops.foldl (fun t op => .unary op t) t
  match b.key with
  | none => t
  | some key => .isIn key t

/-- All that was begun, ended with `t`. -/
def close (b : Begun) (t : Phrase) : Phrase :=
  b.targets.foldl (fun value target => .assign target value) (b.operand t)

end Begun

mutual

/-- Group the words that follow what was begun. -/
def Words.read (b : Begun) : Words → Phrase
  | .op op rest => rest.read { b with ops := op :: b.ops }
  | .name n rest => rest.read b (.name n)

/-- Group what follows the access `t`. -/
def Rest.read (b : Begun) (t : Phrase) : Rest → Phrase
  | .done => b.close t
  | .member n rest => rest.read b (.member t n)
  | .element args rest => rest.read b (.element t (Words.readAll args))
  | .assign rest => rest.read { targets := b.operand t :: b.targets }
  | .isIn rest => rest.read { targets := b.targets, key := some (b.operand t) }

def Words.readAll : List Words → List Phrase
  | [] => []
  | w :: ws => w.read {} :: Words.readAll ws

end

/-- What the words of an expression read as. -/
def Phrase.regroup (t : Phrase) : Phrase := (t.words .done).read {}

/-! ## Reading loses no words -/

namespace Begun

/-- The words of what was begun since the last assignment, before `w`. -/
def before (b : Begun) (w : Words) : Words :=
  let w := b.ops.foldl (fun w op => .op op w) w
  match b.key with
  | none => w
  | some key => key.words (.isIn w)

/-- The words of all that was begun, before `w`. -/
def wrap (b : Begun) (w : Words) : Words :=
  b.targets.foldl (fun w target => target.words (.assign w)) (b.before w)

theorem words_ops (ops : List UnaryOp) (t : Phrase) (k : Rest) :
    (ops.foldl (fun t op => .unary op t) t).words k =
      ops.foldl (fun w op => .op op w) (t.words k) := by
  induction ops generalizing t with
  | nil => rfl
  | cons op ops ih => exact ih (.unary op t)

theorem words_operand (b : Begun) (t : Phrase) (k : Rest) :
    (b.operand t).words k = b.before (t.words k) := by
  unfold operand before
  cases b.key with
  | none => exact words_ops ..
  | some key => simp only [Phrase.words, words_ops]

theorem words_close (b : Begun) (t : Phrase) :
    (b.close t).words .done = b.wrap (t.words .done) := by
  have targets (ts : List Phrase) (v : Phrase) :
      (ts.foldl (fun value target => .assign target value) v).words .done =
        ts.foldl (fun w target => target.words (.assign w)) (v.words .done) := by
    induction ts generalizing v with
    | nil => rfl
    | cons target ts ih => exact ih (.assign target v)
  rw [close, targets, words_operand]
  rfl

end Begun

mutual

/-- The words of what was read are the words that were there. -/
theorem words_read : ∀ (w : Words) (b : Begun), (w.read b).words .done = b.wrap w
  | .op _ rest, _ => words_read rest _
  | .name n rest, b => words_read_rest rest b (.name n)

theorem words_read_rest :
    ∀ (k : Rest) (b : Begun) (t : Phrase), (k.read b t).words .done = b.wrap (t.words k)
  | .done, b, t => b.words_close t
  | .member n rest, b, t => words_read_rest rest b (.member t n)
  | .element args rest, b, t => by
    rw [Rest.read, words_read_rest rest, Phrase.words, words_readAll]
  | .assign rest, b, t => by
    rw [Rest.read, words_read rest]
    simp only [Begun.wrap, List.foldl_cons, b.words_operand]
    rfl
  | .isIn rest, b, t => by
    rw [Rest.read, words_read rest]
    simp only [Begun.wrap, Begun.before, List.foldl_nil, b.words_operand]

theorem words_readAll : ∀ ws : List Words, Phrase.wordsAll (Words.readAll ws) = ws
  | [] => rfl
  | w :: ws => by
    rw [Words.readAll, Phrase.wordsAll, words_read, words_readAll]
    rfl

end

theorem words_regroup (t : Phrase) : t.regroup.words .done = t.words .done :=
  words_read (t.words .done) {}

/-- Two expressions read alike if and only if they have the same words. -/
theorem regroup_eq_regroup {t t' : Phrase} :
    t.regroup = t'.regroup ↔ t.words .done = t'.words .done := by
  constructor
  · intro h
    rw [← words_regroup t, h, words_regroup]
  · intro h
    rw [Phrase.regroup, h, Phrase.regroup]

/-! ## What is read is grouped -/

/-- What was begun is grouped, and may stand where it stands. -/
structure Begun.Grouped (b : Begun) : Prop where
  targets : ∀ t ∈ b.targets, 1 ≤ t.level ∧ t.grouped = true
  key : ∀ t ∈ b.key, 1 ≤ t.level ∧ t.grouped = true

theorem grouped_ops (ops : List UnaryOp) {t : Phrase} (hl : 2 ≤ t.level) (ht : t.grouped = true) :
    2 ≤ (ops.foldl (fun t op => Phrase.unary op t) t).level ∧
      (ops.foldl (fun t op => Phrase.unary op t) t).grouped = true := by
  induction ops generalizing t with
  | nil => exact ⟨hl, ht⟩
  | cons op ops ih => exact ih (t := .unary op t) (Nat.le_refl 2) (by simp [Phrase.grouped, hl, ht])

theorem Begun.Grouped.operand {b : Begun} (hb : b.Grouped) {t : Phrase} (hl : 3 ≤ t.level)
    (ht : t.grouped = true) : 1 ≤ (b.operand t).level ∧ (b.operand t).grouped = true := by
  obtain ⟨hlevel, hgrouped⟩ := grouped_ops b.ops (by omega) ht
  unfold Begun.operand
  cases hkey : b.key with
  | none => exact ⟨by dsimp only; omega, hgrouped⟩
  | some key =>
    obtain ⟨hl, hkey⟩ := hb.key key hkey
    refine ⟨Nat.le_refl 1, ?_⟩
    simp only [Phrase.grouped, Bool.and_eq_true, decide_eq_true_eq]
    exact ⟨⟨hl, hkey⟩, hlevel, hgrouped⟩

theorem Begun.Grouped.close {b : Begun} (hb : b.Grouped) {t : Phrase} (hl : 3 ≤ t.level)
    (ht : t.grouped = true) : (b.close t).grouped = true := by
  have targets (ts : List Phrase) (hts : ∀ t ∈ ts, 1 ≤ t.level ∧ t.grouped = true) (v : Phrase)
      (hv : v.grouped = true) :
      (ts.foldl (fun value target => Phrase.assign target value) v).grouped = true := by
    induction ts generalizing v with
    | nil => exact hv
    | cons target ts ih =>
      obtain ⟨⟨hl, htarget⟩, hts⟩ := List.forall_mem_cons.1 hts
      exact ih hts _ (by simp [Phrase.grouped, hl, htarget, hv])
  exact targets b.targets hb.targets _ (hb.operand hl ht).2

mutual

theorem grouped_read :
    ∀ (w : Words) {b : Begun}, b.Grouped → (w.read b).grouped = true
  | .op op rest, b, hb => grouped_read rest (b := { b with ops := op :: b.ops }) ⟨hb.1, hb.2⟩
  | .name _ rest, _, hb => grouped_read_rest rest hb (Nat.le_refl 3) rfl

theorem grouped_read_rest :
    ∀ (k : Rest) {b : Begun} {t : Phrase}, b.Grouped → 3 ≤ t.level → t.grouped = true →
      (k.read b t).grouped = true
  | .done, b, t, hb, hl, ht => hb.close hl ht
  | .member n rest, b, t, hb, hl, ht => by
    refine grouped_read_rest rest hb (Nat.le_refl 3) ?_
    simp [Phrase.grouped, hl, ht]
  | .element args rest, b, t, hb, hl, ht => by
    refine grouped_read_rest rest hb (Nat.le_refl 3) ?_
    simp [Phrase.grouped, hl, ht, grouped_readAll args]
  | .assign rest, b, t, hb, hl, ht =>
    grouped_read rest ⟨List.forall_mem_cons.2 ⟨hb.operand hl ht, hb.targets⟩, nofun⟩
  | .isIn rest, b, t, hb, hl, ht => by
    refine grouped_read rest ⟨hb.targets, ?_⟩
    rintro _ ⟨⟩
    exact hb.operand hl ht

theorem grouped_readAll : ∀ ws : List Words, Phrase.groupedAll (Words.readAll ws) = true
  | [] => rfl
  | w :: ws => by
    have hw : (w.read {}).grouped = true := grouped_read w ⟨nofun, nofun⟩
    simp [Words.readAll, Phrase.groupedAll, hw, grouped_readAll ws]

end

/-! ## What is grouped is read back -/

/-- The rest ends an operand with its accesses. -/
def Rest.breaks : Rest → Bool
  | done | assign _ | isIn _ => true
  | member .. | element .. => false

/-- Where an operand has ended, only the whole operand counts. -/
theorem read_congr {k : Rest} (hk : k.breaks = true) {b b' : Begun} {t t' : Phrase}
    (htargets : b.targets = b'.targets) (hoperand : b.operand t = b'.operand t') :
    k.read b t = k.read b' t' := by
  cases k with
  | member | element => cases hk
  | done => rw [Rest.read, Rest.read, Begun.close, Begun.close, htargets, hoperand]
  | assign rest | isIn rest => rw [Rest.read, Rest.read, htargets, hoperand]

/-- The words of the expression are read back, as far as its level allows. -/
structure ReadsBack (t : Phrase) : Prop where
  access : 3 ≤ t.level → ∀ b k, (t.words k).read b = k.read b t
  unary : 2 ≤ t.level → ∀ b (k : Rest), k.breaks = true → (t.words k).read b = k.read b t
  key : 1 ≤ t.level → ∀ targets (k : Rest), k.breaks = true →
    (t.words k).read { targets } = k.read { targets } t
  whole : ∀ targets, (t.words .done).read { targets } = Begun.close { targets } t

theorem readsBack_of_key {t : Phrase} (hl : t.level = 1)
    (h : ∀ targets (k : Rest), k.breaks = true →
      (t.words k).read { targets } = k.read { targets } t) : ReadsBack t :=
  ⟨by omega, by omega, fun _ => h, fun targets => h targets .done rfl⟩

theorem readsBack_of_unary {t : Phrase} (hl : t.level = 2)
    (h : ∀ b (k : Rest), k.breaks = true → (t.words k).read b = k.read b t) : ReadsBack t :=
  ⟨by omega, fun _ => h, fun _ _ => h _, fun _ => h _ .done rfl⟩

theorem readsBack_of_access {t : Phrase} (h : ∀ b k, (t.words k).read b = k.read b t) :
    ReadsBack t :=
  ⟨fun _ => h, fun _ b k _ => h b k, fun _ _ k _ => h _ k, fun _ => h _ .done⟩

mutual

theorem readsBack : ∀ {t : Phrase}, t.grouped = true → ReadsBack t
  | .name _, _ => readsBack_of_access fun _ _ => rfl
  | .member target n, h => by
    simp only [Phrase.grouped, Bool.and_eq_true, decide_eq_true_eq] at h
    exact readsBack_of_access fun b k => (readsBack h.2).access h.1 b (.member n k)
  | .element target args, h => by
    simp only [Phrase.grouped, Bool.and_eq_true, decide_eq_true_eq] at h
    obtain ⟨⟨hl, htarget⟩, hargs⟩ := h
    refine readsBack_of_access fun b k => ?_
    rw [Phrase.words, (readsBack htarget).access hl, Rest.read, readsBack_all hargs]
  | .assign target value, h => by
    simp only [Phrase.grouped, Bool.and_eq_true, decide_eq_true_eq] at h
    obtain ⟨⟨hl, htarget⟩, hvalue⟩ := h
    refine ⟨nofun, nofun, nofun, fun targets => ?_⟩
    rw [Phrase.words, (readsBack htarget).key hl targets _ rfl, Rest.read]
    exact (readsBack hvalue).whole (target :: targets)
  | .unary op operand, h => by
    simp only [Phrase.grouped, Bool.and_eq_true, decide_eq_true_eq] at h
    refine readsBack_of_unary rfl fun b k hk => ?_
    rw [Phrase.words, Words.read, (readsBack h.2).unary h.1 _ k hk]
    exact read_congr hk rfl rfl
  | .isIn key container, h => by
    simp only [Phrase.grouped, Bool.and_eq_true, decide_eq_true_eq] at h
    obtain ⟨⟨hl, hkey⟩, hl', hcontainer⟩ := h
    refine readsBack_of_key rfl fun targets k hk => ?_
    rw [Phrase.words, (readsBack hkey).key hl targets _ rfl, Rest.read,
      (readsBack hcontainer).unary hl' _ k hk]
    exact read_congr hk rfl rfl

theorem readsBack_all :
    ∀ {ts : List Phrase}, Phrase.groupedAll ts = true → Words.readAll (Phrase.wordsAll ts) = ts
  | [], _ => rfl
  | t :: ts, h => by
    simp only [Phrase.groupedAll, Bool.and_eq_true] at h
    rw [Phrase.wordsAll, Words.readAll, readsBack_all h.2]
    exact congrArg (· :: ts) ((readsBack h.1).whole [])

end

/-- An expression is what its words read as if and only if it is grouped. -/
theorem regroup_eq_iff (t : Phrase) : t.regroup = t ↔ t.grouped = true := by
  constructor
  · intro h
    rw [← h]
    exact grouped_read _ ⟨nofun, nofun⟩
  · intro h
    exact (readsBack h).whole []

end Dynascript.Script
