import Dynascript.Diagnostic.Log

/-!
# Sorted logs

`Log.sort` is stable : what lies at one place stays in the order of filing (`atPlace_sort`). So a
sorted log is determined by what the log says at each place (`sort_congr`), however the complaints
about different places were interleaved.
-/

namespace Dynascript

/-- A stable sort keeps the order of items that may stand in any order. -/
theorem filter_mergeSort {α : Type} {le : α → α → Bool}
    (htrans : ∀ a b c, le a b = true → le b c = true → le a c = true)
    (htotal : ∀ a b, (le a b || le b a) = true) {p : α → Bool}
    (hp : ∀ a b, p a = true → p b = true → le a b = true) (l : List α) :
    (l.mergeSort le).filter p = l.filter p := by
  have hpairwise : (l.filter p).Pairwise fun a b => le a b = true :=
    List.pairwise_of_forall_mem_list fun a ha b hb =>
      hp a b (List.mem_filter.1 ha).2 (List.mem_filter.1 hb).2
  have hsublist : (l.filter p).Sublist (l.mergeSort le) :=
    List.sublist_mergeSort htrans htotal hpairwise List.filter_sublist
  have hfiltered : (l.filter p).Sublist ((l.mergeSort le).filter p) := by
    simpa using hsublist.filter p
  have hperm : ((l.mergeSort le).filter p).Perm (l.filter p) := (List.mergeSort_perm l le).filter p
  exact (hfiltered.eq_of_length hperm.length_eq.symm).symm

namespace Diagnostic

/-- `before` orders places by file and then by position. -/
theorem before_iff {a b : Diagnostic} : a.before b = true ↔
    a.sortKey.1 < b.sortKey.1 ∨ a.sortKey.1 = b.sortKey.1 ∧ a.sortKey.2 ≤ b.sortKey.2 := by
  simp [before]

theorem before_trans (a b c : Diagnostic) (hab : a.before b = true) (hbc : b.before c = true) :
    a.before c = true := by
  rw [before_iff] at hab hbc ⊢
  omega

theorem before_total (a b : Diagnostic) : (a.before b || b.before a) = true := by
  rw [Bool.or_eq_true, before_iff, before_iff]
  omega

/-- What comes before each other lies at the same place. -/
theorem sortKey_eq {a b : Diagnostic} (hab : a.before b = true) (hba : b.before a = true) :
    a.sortKey = b.sortKey := by
  rw [before_iff] at hab hba
  exact Prod.ext (by omega) (by omega)

theorem before_of_sortKey_eq {a b : Diagnostic} (h : a.sortKey = b.sortKey) :
    a.before b = true := by
  rw [before_iff, h]
  exact .inr ⟨rfl, Nat.le_refl _⟩

end Diagnostic

namespace Log

/-- What the log says at a place. -/
def atPlace (log : Log) (key : Nat × Nat) : Log := log.filter (·.sortKey == key)

theorem mem_atPlace {log : Log} {key : Nat × Nat} {d : Diagnostic} :
    d ∈ log.atPlace key ↔ d ∈ log ∧ d.sortKey = key := by
  simp [atPlace]

theorem sort_pairwise (log : Log) : log.sort.Pairwise fun a b => a.before b = true :=
  List.pairwise_mergeSort Diagnostic.before_trans Diagnostic.before_total log

/-- Sorting keeps the order of filing at a place. -/
theorem atPlace_sort (log : Log) (key : Nat × Nat) : log.sort.atPlace key = log.atPlace key := by
  refine filter_mergeSort Diagnostic.before_trans Diagnostic.before_total (fun a b ha hb => ?_) log
  exact Diagnostic.before_of_sortKey_eq ((eq_of_beq ha).trans (eq_of_beq hb).symm)

theorem atPlace_cons_self (d : Diagnostic) (log : Log) :
    atPlace (d :: log) d.sortKey = d :: log.atPlace d.sortKey := by
  simp [atPlace]

/-- A first complaint in common can be left out. -/
theorem atPlace_tail {d : Diagnostic} {log log' : Log} {key : Nat × Nat}
    (h : atPlace (d :: log) key = atPlace (d :: log') key) :
    log.atPlace key = log'.atPlace key := by
  by_cases hd : d.sortKey = key
  · subst hd
    rw [atPlace_cons_self, atPlace_cons_self] at h
    exact (List.cons.inj h).2
  · simpa [atPlace, hd] using h

theorem mem_iff_of_atPlace {log log' : Log} (h : ∀ key, log.atPlace key = log'.atPlace key)
    (d : Diagnostic) : d ∈ log ↔ d ∈ log' := by
  have hd : d ∈ log.atPlace d.sortKey ↔ d ∈ log'.atPlace d.sortKey := by rw [h]
  simpa [mem_atPlace] using hd

/-- Sorted logs that say the same at each place are the same. -/
theorem eq_of_atPlace {log log' : Log} (h : log.Pairwise fun a b => a.before b = true)
    (h' : log'.Pairwise fun a b => a.before b = true)
    (hsame : ∀ key, log.atPlace key = log'.atPlace key) : log = log' := by
  induction log generalizing log' with
  | nil =>
    refine (List.eq_nil_iff_forall_not_mem.2 fun d hd => ?_).symm
    cases (mem_iff_of_atPlace hsame d).2 hd
  | cons d rest ih =>
    have hmem := mem_iff_of_atPlace hsame
    cases log' with
    | nil => cases (hmem d).1 List.mem_cons_self
    | cons d' rest' =>
      obtain ⟨hd, hrest⟩ := List.pairwise_cons.1 h
      obtain ⟨hd', hrest'⟩ := List.pairwise_cons.1 h'
      -- Each of the two first complaints comes before the other.
      have hkey : d.sortKey = d'.sortKey := by
        rcases List.mem_cons.1 ((hmem d).1 List.mem_cons_self) with heq | hin
        · rw [heq]
        rcases List.mem_cons.1 ((hmem d').2 List.mem_cons_self) with heq | hin'
        · rw [heq]
        exact Diagnostic.sortKey_eq (hd d' hin') (hd' d hin)
      have hfirst := hsame d.sortKey
      rw [atPlace_cons_self, hkey, atPlace_cons_self] at hfirst
      obtain ⟨rfl, -⟩ := List.cons.inj hfirst
      rw [ih hrest hrest' fun key => atPlace_tail (hsame key)]

/-- A sorted log is determined by what the log says at each place. -/
theorem sort_congr {log log' : Log} (h : ∀ key, log.atPlace key = log'.atPlace key) :
    log.sort = log'.sort := by
  refine eq_of_atPlace (sort_pairwise log) (sort_pairwise log') fun key => ?_
  rw [atPlace_sort, atPlace_sort, h]

end Log

end Dynascript
