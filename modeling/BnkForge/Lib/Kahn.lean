import BnkForge.Lib.Peeling
import Mathlib.Data.List.Count
import Mathlib.Data.List.Nodup
import Mathlib.Data.List.Perm.Subperm
import Mathlib.Logic.Function.Basic

/-!
# Kahn's algorithm

Nodes whose dependencies are all emitted stand in a queue. A node that is taken from it is emitted, and
the count of the dependencies that are left is lowered for each of its dependents; who has none left
goes to the end of the queue.
-/

namespace Kahn

open List

variable {α : Type} [DecidableEq α]

/-- The queue, the counts of the dependencies that are left, and the nodes that are emitted. -/
structure State (α : Type) where
  queue : List α
  inDegree : α → Nat
  result : List α

/-- One dependency less for a node. -/
def lower (s : (α → Nat) × List α) (n : α) : (α → Nat) × List α :=
  (Function.update s.1 n (s.1 n - 1), if s.1 n - 1 = 0 then s.2 ++ [n] else s.2)

def pop (graph : α → List α) (s : State α) : State α :=
  match s.queue with
  | [] => s
  | current :: rest =>
    let lowered := (graph current).foldl lower (s.inDegree, rest)
    ⟨lowered.2, lowered.1, s.result ++ [current]⟩

/-- Nodes are emitted until the queue is empty, up to a number of them. -/
def drain (graph : α → List α) : Nat → State α → State α
  | 0, s => s
  | count + 1, s => drain graph count (pop graph s)

/-- Lowering for each of some nodes lowers a count by how often its node is among them, and enqueues
those that come to zero. -/
theorem foldl_lower {ns : List α} {degree : α → Nat} (queue : List α)
    (hle : ∀ n, ns.count n ≤ degree n) :
    ∃ added : List α, (ns.foldl lower (degree, queue)).2 = queue ++ added ∧
      (∀ n, (ns.foldl lower (degree, queue)).1 n = degree n - ns.count n) ∧ added.Nodup ∧
      ∀ n, n ∈ added ↔ n ∈ ns ∧ degree n = ns.count n := by
  induction ns generalizing degree queue with
  | nil => exact ⟨[], (append_nil _).symm, fun _ ↦ rfl, nodup_nil, fun n ↦ by simp⟩
  | cons m ns ih =>
    have hm := hle m
    rw [count_cons_self] at hm
    have hcount : ∀ n, n ≠ m → (m :: ns).count n = ns.count n := fun n hne ↦
      count_cons_of_ne hne.symm
    have hle' : ∀ n, ns.count n ≤ Function.update degree m (degree m - 1) n := by
      intro n
      rcases eq_or_ne n m with rfl | hne
      · rw [Function.update_self]
        omega
      · rw [Function.update_of_ne hne, ← hcount n hne]
        exact hle n
    obtain ⟨added, hqueue, hdegree, hnodup, hmem⟩ :=
      ih (if degree m - 1 = 0 then queue ++ [m] else queue) hle'
    have hdegree' : ∀ n, ((m :: ns).foldl lower (degree, queue)).1 n =
        degree n - (m :: ns).count n := by
      intro n
      rw [foldl_cons, lower, hdegree]
      rcases eq_or_ne n m with rfl | hne
      · rw [Function.update_self, count_cons_self]
        omega
      · rw [Function.update_of_ne hne, hcount n hne]
    have hmem' : ∀ n, n ≠ m → (n ∈ added ↔ n ∈ m :: ns ∧ degree n = (m :: ns).count n) := by
      intro n hne
      rw [hmem, Function.update_of_ne hne, hcount n hne, mem_cons, or_iff_right hne]
    rw [foldl_cons, lower] at hdegree' ⊢
    by_cases hzero : degree m - 1 = 0
    · -- the node comes to zero here, and is not among the others
      have hnot : m ∉ ns := by
        intro hin
        have := count_pos_iff.mpr hin
        omega
      have hnotAdded : m ∉ added := fun hin ↦ hnot ((hmem m).mp hin).1
      rw [if_pos hzero] at hqueue hdegree' ⊢
      refine ⟨m :: added, ?_, hdegree', nodup_cons.mpr ⟨hnotAdded, hnodup⟩, fun n ↦ ?_⟩
      · rw [hqueue, append_assoc, singleton_append]
      · rcases eq_or_ne n m with rfl | hne
        · have hcount' := count_eq_zero_of_not_mem hnot
          rw [count_cons_self, hcount']
          exact iff_of_true mem_cons_self ⟨mem_cons_self, by omega⟩
        · rw [mem_cons, or_iff_right hne]
          exact hmem' n hne
    · rw [if_neg hzero] at hqueue hdegree' ⊢
      refine ⟨added, hqueue, hdegree', hnodup, fun n ↦ ?_⟩
      rcases eq_or_ne n m with rfl | hne
      · rw [hmem, Function.update_self, count_cons_self]
        constructor
        · rintro ⟨-, heq⟩
          exact ⟨mem_cons_self, by omega⟩
        · rintro ⟨-, heq⟩
          exact ⟨count_pos_iff.mp (by omega), by omega⟩
      · exact hmem' n hne

/-- What holds of the nodes with their dependencies between two steps. -/
structure Inv (ids : List α) (deps : α → List α) (s : State α) : Prop where
  nodup : (s.result ++ s.queue).Nodup
  degree : ∀ n, s.inDegree n = (deps n).countP fun x ↦ x ∉ s.result
  mem : ∀ n, n ∈ s.result ++ s.queue ↔ n ∈ ids ∧ s.inDegree n = 0
  ordered : ∀ l n r, s.result = l ++ n :: r → ∀ x ∈ deps n, x ∈ l

section

variable {ids : List α} {deps graph : α → List α} {s : State α}

/-- Who is left to wait for, once one more node is emitted. -/
theorem countP_not_mem_append {emitted : List α} {c : α} (hc : c ∉ emitted) (xs : List α) :
    xs.countP (fun x ↦ x ∉ emitted) = (xs.countP fun x ↦ x ∉ emitted ++ [c]) + xs.count c := by
  induction xs with
  | nil => rfl
  | cons x xs ih =>
    rw [countP_cons, countP_cons, count_cons, ih]
    rcases eq_or_ne x c with rfl | hne
    · have hin : x ∈ emitted ++ [x] := mem_append_right _ (mem_singleton_self x)
      simp only [hc, hin, not_false_eq_true, not_true_eq_false, decide_true, decide_false,
        beq_self_eq_true, if_true, Bool.false_eq_true, if_false]
      omega
    · have hiff : x ∉ emitted ↔ x ∉ emitted ++ [c] := by
        rw [mem_append, mem_singleton, or_iff_left hne]
      rw [beq_false_of_ne hne, if_neg Bool.false_ne_true]
      simp only [hiff]
      omega

theorem Inv.pop (h : Inv ids deps s) (hgraph : ∀ x ∈ ids, ∀ n, (graph x).count n = (deps n).count x)
    (hids : ∀ n, n ∉ ids → deps n = []) : Inv ids deps (pop graph s) := by
  obtain ⟨queue, inDegree, result⟩ := s
  obtain ⟨hnodup, hdegree, hmem, hordered⟩ := h
  cases queue with
  | nil => exact ⟨hnodup, hdegree, hmem, hordered⟩
  | cons c rest =>
    dsimp only at hnodup hdegree hmem hordered
    have hemitted : c ∉ result := fun hin ↦
      disjoint_of_nodup_append hnodup hin mem_cons_self
    have hsplit := fun n ↦ countP_not_mem_append hemitted (deps n)
    have hgraph := hgraph c ((hmem c).mp (mem_append_right _ mem_cons_self)).1
    have hle : ∀ n, (graph c).count n ≤ inDegree n := by
      intro n
      rw [hgraph, hdegree, hsplit]
      exact Nat.le_add_left _ _
    obtain ⟨added, hqueue, hlowered, hadded, hadd⟩ := foldl_lower rest hle
    have hpos : ∀ n ∈ added, 0 < inDegree n := fun n hn ↦ by
      obtain ⟨hin, heq⟩ := (hadd n).mp hn
      rw [heq]
      exact count_pos_iff.mpr hin
    have hold : ∀ n ∈ result ++ c :: rest, inDegree n = 0 := fun n hn ↦ ((hmem n).mp hn).2
    simp only [Kahn.pop]
    rw [hqueue]
    refine ⟨?_, fun n ↦ ?_, fun n ↦ ?_, fun l n r hlist ↦ ?_⟩
    · rw [append_assoc, singleton_append, ← cons_append, ← append_assoc]
      refine List.Nodup.append hnodup hadded fun n hn hin ↦ ?_
      exact absurd (hold n hn) (Nat.ne_of_gt (hpos n hin))
    · dsimp only
      rw [hlowered, hgraph, hdegree, hsplit, Nat.add_sub_cancel]
    · dsimp only
      rw [append_assoc, singleton_append, ← cons_append, ← append_assoc,
        mem_append, hmem, hadd, hlowered]
      have hcount := hle n
      constructor
      · rintro (⟨hin, hzero⟩ | ⟨hin, heq⟩)
        · exact ⟨hin, by omega⟩
        · refine ⟨?_, by omega⟩
          by_contra hout
          have hdeps := hgraph n
          rw [hids n hout, count_nil] at hdeps
          exact absurd (count_pos_iff.mpr hin) (by omega)
      · rintro ⟨hin, hzero⟩
        by_cases hdone : inDegree n = 0
        · exact Or.inl ⟨hin, hdone⟩
        · exact Or.inr ⟨count_pos_iff.mp (by omega), by omega⟩
    · rcases eq_nil_or_concat r with rfl | ⟨r', last, rfl⟩
      · obtain ⟨rfl, hlast⟩ := append_inj' hlist rfl
        cases singleton_inj.mp hlast
        intro x hx
        have hwaiting := hdegree c
        rw [hold c (mem_append_right _ mem_cons_self)] at hwaiting
        have hall := countP_eq_zero.mp hwaiting.symm x hx
        rw [decide_eq_true_eq, not_not] at hall
        exact hall
      · rw [concat_eq_append, ← cons_append, ← append_assoc] at hlist
        exact hordered l n r' (append_inj' hlist rfl).1

theorem Inv.drain (h : Inv ids deps s) (hgraph : ∀ x ∈ ids, ∀ n, (graph x).count n = (deps n).count x)
    (hids : ∀ n, n ∉ ids → deps n = []) (count : Nat) : Inv ids deps (drain graph count s) := by
  induction count generalizing s with
  | zero => exact h
  | succ count ih => exact ih (h.pop hgraph hids)

/-- A step emits a node, or the queue is empty. -/
theorem drain_queue_or_length (graph : α → List α) (count : Nat) (s : State α) :
    (drain graph count s).queue = [] ∨
      (drain graph count s).result.length = s.result.length + count := by
  induction count generalizing s with
  | zero => exact Or.inr rfl
  | succ count ih =>
    cases hqueue : s.queue with
    | nil =>
      have hstay : ∀ k, drain graph k s = s := by
        intro k
        induction k with
        | zero => rfl
        | succ k ihk => rw [drain, pop, hqueue, ihk]
      rw [hstay]
      exact Or.inl hqueue
    | cons c rest =>
      refine (ih (pop graph s)).imp_right fun hlength ↦ ?_
      rw [drain, hlength]
      simp only [pop, hqueue, length_append, length_singleton]
      omega

/-- As many steps as there are nodes empty the queue. -/
theorem Inv.drain_queue (h : Inv ids deps s) (hresult : s.result = [])
    (hgraph : ∀ x ∈ ids, ∀ n, (graph x).count n = (deps n).count x)
    (hids : ∀ n, n ∉ ids → deps n = []) : (Kahn.drain graph ids.length s).queue = [] := by
  have hinv := h.drain hgraph hids ids.length
  refine (drain_queue_or_length graph ids.length s).elim id fun hlength ↦ ?_
  have hle := (subperm_of_subset hinv.nodup fun n hn ↦ ((hinv.mem n).mp hn).1).length_le
  rw [length_append, hlength, hresult, length_nil] at hle
  exact eq_nil_of_length_eq_zero (by omega)

/-- Where the queue is empty and the dependencies are nodes of lower rank, every node is emitted. -/
theorem Inv.mem_result (h : Inv ids deps s) (hqueue : s.queue = []) {rank : α → Nat}
    (hlower : ∀ n, ∀ x ∈ deps n, x ∈ ids ∧ rank x < rank n) {n : α} (hn : n ∈ ids) :
    n ∈ s.result := by
  induction hrank : rank n using Nat.strongRecOn generalizing n with
  | _ k ih =>
    have hzero : s.inDegree n = 0 := by
      rw [h.degree, countP_eq_zero]
      intro x hx
      obtain ⟨hin, hlt⟩ := hlower n x hx
      rw [decide_eq_true_eq, not_not]
      exact ih (rank x) (hrank ▸ hlt) hin rfl
    have hmem := (h.mem n).mpr ⟨hn, hzero⟩
    rwa [hqueue, append_nil] at hmem

/-- Exactly the nodes from which the dependencies are well founded are emitted. -/
theorem Inv.mem_result_iff (h : Inv ids deps s) (hqueue : s.queue = [])
    (hclosed : ∀ n ∈ ids, ∀ x ∈ deps n, x ∈ ids) {n : α} :
    n ∈ s.result ↔ n ∈ ids ∧ Acc (Peeling.Below deps) n := by
  have hmem : ∀ n, n ∈ s.result ↔ n ∈ ids ∧ s.inDegree n = 0 := fun n ↦ by
    rw [← h.mem n, hqueue, append_nil]
  constructor
  · intro hn
    refine ⟨((hmem n).mp hn).1, ?_⟩
    obtain ⟨l, r, hlist⟩ := append_of_mem hn
    induction hlength : l.length using Nat.strongRecOn generalizing n l r with
    | _ k ih =>
      refine Acc.intro n fun x hx ↦ ?_
      have hxl := h.ordered l n r hlist x hx
      obtain ⟨l', r', hsplit⟩ := append_of_mem hxl
      refine ih l'.length ?_ (hlist ▸ mem_append_left _ hxl) l' (r' ++ n :: r) ?_ rfl
      · rw [← hlength, hsplit, length_append, length_cons]
        omega
      · rw [hlist, hsplit, append_assoc, cons_append]
  · rintro ⟨hn, hacc⟩
    refine Peeling.mem_of_acc hclosed (fun x hx hdeps ↦ (hmem x).mpr ⟨hx, ?_⟩) hacc hn
    rw [h.degree, countP_eq_zero]
    intro d hd
    rw [decide_eq_true_eq, not_not]
    exact hdeps d hd

/-- A node is emitted after its dependencies. -/
theorem Inv.idxOf_lt (h : Inv ids deps s) {n x : α} (hn : n ∈ s.result) (hx : x ∈ deps n) :
    s.result.idxOf x < s.result.idxOf n := by
  obtain ⟨l, r, hlist⟩ := append_of_mem hn
  have hin := h.ordered l n r hlist x hx
  have hnot : n ∉ l := by
    have hnodup := (nodup_append.mp h.nodup).1
    rw [hlist] at hnodup
    exact fun hnl ↦ disjoint_of_nodup_append hnodup hnl mem_cons_self
  rw [hlist, idxOf_append_of_mem hin, idxOf_append_of_notMem hnot, idxOf_cons_self,
    Nat.add_zero]
  exact idxOf_lt_length_iff.mpr hin

/-! ### Levels -/

/-- The nodes stand by level, and those of the queue are of two levels at most. -/
structure Leveled (level : α → Nat) (s : State α) : Prop where
  sorted : (s.result ++ s.queue).Pairwise fun m n ↦ level m ≤ level n
  spread : ∀ m ∈ s.queue, ∀ n ∈ s.queue, level n ≤ level m + 1

/-- Who comes into the queue is one level above the node that is emitted, which is the last of its
dependencies. -/
theorem Leveled.pop {level : α → Nat} (h : Leveled level s) (hinv : Inv ids deps s)
    (hgraph : ∀ x ∈ ids, ∀ n, (graph x).count n = (deps n).count x) (hids : ∀ n, n ∉ ids → deps n = [])
    (hlevel : ∀ n ∈ ids, level n = Peeling.above level (deps n)) : Leveled level (pop graph s) := by
  have hinv' := hinv.pop hgraph hids
  obtain ⟨queue, inDegree, result⟩ := s
  obtain ⟨hsorted, hspread⟩ := h
  cases queue with
  | nil => exact ⟨hsorted, hspread⟩
  | cons c rest =>
    have hc := ((hinv.mem c).mp (mem_append_right _ mem_cons_self)).1
    have hnot : c ∉ result := fun hin ↦ disjoint_of_nodup_append hinv.nodup hin mem_cons_self
    have hle : ∀ n, (graph c).count n ≤ inDegree n := by
      intro n
      have hdegree := hinv.degree n
      rw [countP_not_mem_append hnot] at hdegree
      have hcount := hgraph c hc n
      dsimp only at hdegree
      omega
    obtain ⟨added, hqueue, -, -, hadd⟩ := foldl_lower rest hle
    simp only [Kahn.pop, hqueue] at hinv' ⊢
    have hbelow : ∀ x ∈ result ++ [c], level x ≤ level c := by
      intro x hx
      rcases mem_append.mp hx with hx | hx
      · exact (pairwise_append.mp hsorted).2.2 x hx c mem_cons_self
      · rw [mem_singleton.mp hx]
    have hnew : ∀ n ∈ added, level n = level c + 1 := by
      intro n hn
      obtain ⟨hin, hzero⟩ := (hinv'.mem n).mp (mem_append_right _ (mem_append_right _ hn))
      rw [hinv'.degree, countP_eq_zero] at hzero
      have hmem : c ∈ deps n := count_pos_iff.mp (hgraph c hc n ▸ count_pos_iff.mpr ((hadd n).mp hn).1)
      rw [hlevel n hin]
      refine le_antisymm (Peeling.above_le fun x hx ↦ ?_) (Peeling.lt_above hmem)
      have hdone := hzero x hx
      rw [decide_eq_true_eq, not_not] at hdone
      exact Nat.lt_succ_of_le (hbelow x hdone)
    have hold : ∀ x ∈ result ++ c :: rest, level x ≤ level c + 1 := by
      intro x hx
      rcases mem_append.mp hx with hx | hx
      · exact Nat.le_succ_of_le (hbelow x (mem_append_left _ hx))
      · exact hspread c mem_cons_self x hx
    have hrest : ∀ x ∈ rest, level c ≤ level x := (pairwise_cons.mp (pairwise_append.mp hsorted).2.1).1
    constructor
    · rw [append_assoc, singleton_append, ← cons_append, ← append_assoc, pairwise_append]
      refine ⟨hsorted, pairwise_of_forall_mem_list fun m hm n hn ↦ ?_, fun x hx n hn ↦ hnew n hn ▸ hold x hx⟩
      rw [hnew m hm, hnew n hn]
    · intro m hm n hn
      have hfrom : level c ≤ level m := (mem_append.mp hm).elim (hrest m) fun hm ↦ by
        rw [hnew m hm]
        omega
      have hto : level n ≤ level c + 1 := (mem_append.mp hn).elim
        (fun hn ↦ hold n (mem_append_right _ (mem_cons_of_mem _ hn))) fun hn ↦ (hnew n hn).le
      omega

theorem Leveled.drain {level : α → Nat} (h : Leveled level s) (hinv : Inv ids deps s)
    (hgraph : ∀ x ∈ ids, ∀ n, (graph x).count n = (deps n).count x) (hids : ∀ n, n ∉ ids → deps n = [])
    (hlevel : ∀ n ∈ ids, level n = Peeling.above level (deps n)) (count : Nat) :
    Leveled level (drain graph count s) := by
  induction count generalizing s with
  | zero => exact h
  | succ count ih => exact ih (h.pop hinv hgraph hids hlevel) (hinv.pop hgraph hids)

end

end Kahn
