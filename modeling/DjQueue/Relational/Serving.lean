import DjQueue.Relational.Grouping

/-!
# Serving requests one by one or group by group

Requests are served in turn on a shared state.  Where requests of different keys do not disturb
each other once one of them has been served, it makes no difference whether they are served in the
order of the list or all of one key after all of another.
-/

namespace Relational

universe u v w x

variable {α : Type u} {κ : Type v} {β : Type w} {σ : Type x}

/-- Each request with its answer, and the state afterwards. -/
def serveAll (serve : κ → σ → β × σ) (key : α → κ) : List α → σ → List (α × β) × σ
  | [], s => ([], s)
  | a :: l, s =>
      let first := serve (key a) s
      let rest := serveAll serve key l first.2
      ((a, first.1) :: rest.1, rest.2)

section Serve

variable {serve : κ → σ → β × σ} {key : α → κ}

@[simp] theorem serveAll_nil (s : σ) : serveAll serve key ([] : List α) s = ([], s) := rfl

theorem serveAll_cons (a : α) (l : List α) (s : σ) :
    serveAll serve key (a :: l) s =
      ((a, (serve (key a) s).1) :: (serveAll serve key l (serve (key a) s).2).1,
        (serveAll serve key l (serve (key a) s).2).2) := rfl

theorem serveAll_append (l l' : List α) (s : σ) :
    serveAll serve key (l ++ l') s =
      ((serveAll serve key l s).1 ++ (serveAll serve key l' (serveAll serve key l s).2).1,
        (serveAll serve key l' (serveAll serve key l s).2).2) := by
  induction l generalizing s with
  | nil => rfl
  | cons a l ih =>
      rw [List.cons_append, serveAll_cons, ih, serveAll_cons]
      rfl

/-- The answers come with the requests, in their order. -/
theorem map_fst_serveAll (serve : κ → σ → β × σ) (key : α → κ) (l : List α) (s : σ) :
    (serveAll serve key l s).1.map Prod.fst = l := by
  induction l generalizing s with
  | nil => rfl
  | cons a l ih =>
      rw [serveAll_cons, List.map_cons, ih]

/-- An answer is what its request gets in some state. -/
theorem mem_serveAll {l : List α} {s : σ} {x : α × β} (mem : x ∈ (serveAll serve key l s).1) :
    x.1 ∈ l ∧ ∃ s', x.2 = (serve (key x.1) s').1 := by
  induction l generalizing s with
  | nil => cases mem
  | cons a l ih =>
      rw [serveAll_cons] at mem
      rcases List.mem_cons.mp mem with rfl | later
      · exact ⟨List.mem_cons_self, s, rfl⟩
      · obtain ⟨inside, served⟩ := ih later
        exact ⟨List.mem_cons_of_mem _ inside, served⟩

end Serve

/-- Keys that do not disturb each other once the first of them is `Known` to the state. -/
structure Commutes (serve : κ → σ → β × σ) (Known : κ → σ → Prop) (Apart : κ → κ → Prop) :
    Prop where
  served : ∀ k s, Known k (serve k s).2
  stays : ∀ k k' s, Known k s → Known k (serve k' s).2
  swap : ∀ k k' s, Apart k k' → Known k s →
    (serve k (serve k' s).2).1 = (serve k s).1 ∧
      (serve k' (serve k s).2).1 = (serve k' s).1 ∧
      (serve k (serve k' s).2).2 = (serve k' (serve k s).2).2

section Commutes

variable {serve : κ → σ → β × σ} {key : α → κ} {Known : κ → σ → Prop} {Apart : κ → κ → Prop}

/-- One request of another key before or after all requests of a known one. -/
theorem Commutes.serveAll_swap (commutes : Commutes serve Known Apart) {k k' : κ}
    (apart : Apart k k') :
    ∀ {l : List α} {s : σ}, (∀ a ∈ l, key a = k) → Known k s →
      (serveAll serve key l (serve k' s).2).1 = (serveAll serve key l s).1 ∧
        (serve k' (serveAll serve key l s).2).1 = (serve k' s).1 ∧
        (serveAll serve key l (serve k' s).2).2 = (serve k' (serveAll serve key l s).2).2
  | [], s, _, _ => ⟨rfl, rfl, rfl⟩
  | a :: l, s, all, known => by
      have isKey : key a = k := all a List.mem_cons_self
      obtain ⟨answer, other, state⟩ := commutes.swap k k' s apart known
      obtain ⟨answers, others, states⟩ := commutes.serveAll_swap apart
        (fun b mem => all b (List.mem_cons_of_mem _ mem)) (commutes.served k s)
      rw [serveAll_cons, serveAll_cons, isKey]
      refine ⟨?_, others.trans other, ?_⟩
      · rw [answer, state, answers]
      · rw [state, states]

variable [DecidableEq κ]

/-- Serving a list, with one key known, is serving that key's requests and then the others. -/
theorem Commutes.serveAll_split (commutes : Commutes serve Known Apart) {k : κ} :
    ∀ {l : List α} {s : σ}, (∀ a ∈ l, key a ≠ k → Apart k (key a)) → Known k s →
      let here := serveAll serve key (l.filter (fun a => key a = k)) s
      let others := serveAll serve key (l.filter (fun a => key a ≠ k)) here.2
      (serveAll serve key l s).2 = others.2 ∧
        (serveAll serve key l s).1.filter (fun x => key x.1 = k) = here.1 ∧
        (serveAll serve key l s).1.filter (fun x => key x.1 ≠ k) = others.1
  | [], s, _, _ => ⟨rfl, rfl, rfl⟩
  | a :: l, s, apart, known => by
      have apart' : ∀ b ∈ l, key b ≠ k → Apart k (key b) :=
        fun b mem => apart b (List.mem_cons_of_mem _ mem)
      have known' := commutes.stays k (key a) s known
      obtain ⟨state, here, others⟩ := commutes.serveAll_split apart' known'
      by_cases isKey : key a = k
      · simp only [serveAll_cons, List.filter_cons, isKey, decide_true, if_true, ne_eq,
          not_true_eq_false, decide_false, Bool.false_eq_true, if_false]
        rw [isKey] at state here others
        exact ⟨state, by rw [here], others⟩
      · -- the request of the other key moves behind those of `k`
        obtain ⟨answers, answer, moved⟩ := commutes.serveAll_swap
          (apart a List.mem_cons_self isKey) (l := l.filter (fun b => key b = k))
          (fun b mem => of_decide_eq_true (List.mem_filter.mp mem).2) known
        simp only [serveAll_cons, List.filter_cons, isKey, decide_false, if_false, ne_eq,
          not_false_eq_true, decide_true, if_true, Bool.false_eq_true]
        rw [moved] at state others
        refine ⟨state, here.trans answers, ?_⟩
        rw [answer]
        exact congrArg _ others

/-- Serving group after group gives every request the answer it gets in the order of the list, and
leaves the same state. -/
theorem Commutes.serveAll_groups (commutes : Commutes serve Known Apart) (l : List α) (s : σ)
    (apart : ∀ a ∈ l, ∀ b ∈ l, key b ≠ key a → Apart (key a) (key b)) :
    serveAll serve key ((groupBy key l).flatMap Prod.snd) s =
      ((groupBy (fun x => key x.1) (serveAll serve key l s).1).flatMap Prod.snd,
        (serveAll serve key l s).2) := by
  -- on the length: what is left after the first key's requests is a shorter list
  induction size : l.length using Nat.strongRecOn generalizing l s with
  | _ n ih =>
      cases l with
      | nil => rfl
      | cons a l =>
          subst size
          have here := commutes.serveAll_split (l := l) (s := (serve (key a) s).2)
            (fun b mem => apart a List.mem_cons_self b (List.mem_cons_of_mem _ mem))
            (commutes.served (key a) s)
          obtain ⟨state, first, others⟩ := here
          have shorter : (l.filter (fun b => key b ≠ key a)).length < (a :: l).length :=
            Nat.lt_succ_of_le (List.length_filter_le _ _)
          have rest := ih _ shorter (l.filter (fun b => key b ≠ key a))
            (serveAll serve key (l.filter (fun b => key b = key a)) (serve (key a) s).2).2
            (fun b mem c mem' => apart b (List.mem_cons_of_mem _ (List.mem_of_mem_filter mem)) c
              (List.mem_cons_of_mem _ (List.mem_of_mem_filter mem'))) rfl
          rw [groupBy_cons, List.flatMap_cons, serveAll_append, serveAll_cons, serveAll_cons,
            groupBy_cons, List.flatMap_cons, rest, first, others, state]

end Commutes

end Relational
