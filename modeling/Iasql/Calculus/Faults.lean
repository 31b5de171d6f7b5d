import Iasql.Calculus.Program

namespace Program.Prog

variable {σ ε α β : Type}

-- a call that throws, or does nothing that is of interest
def check : Option ε → Prog σ ε Unit
  | some e => fail e
  | none => pure ()

variable {fault : Option ε} {k : Unit → Prog σ ε β} {s : σ}

@[simp] theorem check_none_bind : ((check none : Prog σ ε Unit) >>= k) s = k () s := rfl

@[simp] theorem check_some_bind (e : ε) : ((check (some e) : Prog σ ε Unit) >>= k) s = (.thrown e, s) := rfl

theorem check_bind_returned {b : β} {t : σ} (h : (check fault >>= k) s = (.returned b, t)) :
    fault = none ∧ k () s = (.returned b, t) := by
  cases fault with
  | none => exact ⟨rfl, h⟩
  | some e => cases h

theorem each_check_of_none {γ : Type} {faults : γ → Option ε} {xs : List γ} (h : ∀ x ∈ xs, faults x = none) :
    each (fun x => (check (faults x) : Prog σ ε Unit)) xs s = (.returned (), s) := by
  induction xs with
  | nil => rfl
  | cons x xs ih =>
    obtain ⟨hx, hxs⟩ := List.forall_mem_cons.mp h
    rw [each, hx, check_none_bind, ih hxs]

theorem each_check_of_some {γ : Type} {faults : γ → Option ε} {xs : List γ} (h : ¬ ∀ x ∈ xs, faults x = none) :
    ∃ e, each (fun x => (check (faults x) : Prog σ ε Unit)) xs s = (.thrown e, s) := by
  induction xs with
  | nil => exact absurd (fun x hx => absurd hx List.not_mem_nil) h
  | cons x xs ih =>
    rw [List.forall_mem_cons, not_and] at h
    rw [each]
    cases hx : faults x with
    | some e => exact ⟨e, rfl⟩
    | none => exact ih (h hx)

-- at most n turns from turn i on, until one of them has the answer
def poll (fault : Nat → Option ε) (answer : Nat → Option α) : Nat → Nat → Prog σ ε (Option α)
  | 0, _ => pure none
  | n + 1, i => do
    check (fault i)
    match answer i with
    | some a => return some a
    | none => poll fault answer n (i + 1)

-- no turn that is made throws
def Polls (fault : Nat → Option ε) (answer : Nat → Option α) (n i : Nat) : Prop :=
  ∀ j < n, (∀ l < j, answer (i + l) = none) → fault (i + j) = none

theorem polls_succ {faults : Nat → Option ε} {answer : Nat → Option α} {n i : Nat} :
    Polls faults answer (n + 1) i ↔ faults i = none ∧ (answer i = none → Polls faults answer n (i + 1)) := by
  constructor
  · intro h
    refine ⟨h 0 (Nat.succ_pos n) fun l hl => absurd hl (Nat.not_lt_zero l), fun hnone j hj hbefore => ?_⟩
    have hstep := h (j + 1) (Nat.succ_lt_succ hj) fun l hl => ?_
    · rwa [Nat.add_assoc, Nat.add_comm 1 j]
    · cases l with
      | zero => exact hnone
      | succ l =>
        have hbefore := hbefore l (Nat.lt_of_succ_lt_succ hl)
        rwa [Nat.add_assoc, Nat.add_comm 1 l] at hbefore
  · rintro ⟨hfirst, hrest⟩ j hj hbefore
    cases j with
    | zero => exact hfirst
    | succ j =>
      have hstep := hrest (hbefore 0 (Nat.succ_pos j)) j (Nat.lt_of_succ_lt_succ hj) fun l hl => ?_
      · rwa [Nat.add_assoc, Nat.add_comm 1 j] at hstep
      · have hbefore := hbefore (l + 1) (Nat.succ_lt_succ hl)
        rwa [Nat.add_assoc, Nat.add_comm 1 l]

theorem poll_of_polls {faults : Nat → Option ε} {answer : Nat → Option α} {n i : Nat}
    (h : Polls faults answer n i) :
    poll faults answer n i s = (.returned ((List.range' i n).findSome? answer), s) := by
  induction n generalizing i with
  | zero => rfl
  | succ n ih =>
    obtain ⟨hfirst, hrest⟩ := polls_succ.mp h
    rw [poll, hfirst, check_none_bind, List.range'_succ, List.findSome?_cons]
    cases hanswer : answer i with
    | none => exact ih (hrest hanswer)
    | some a => rfl

theorem poll_of_not_polls {faults : Nat → Option ε} {answer : Nat → Option α} {n i : Nat}
    (h : ¬ Polls faults answer n i) : ∃ e, poll faults answer n i s = (.thrown e, s) := by
  induction n generalizing i with
  | zero => exact absurd (fun j hj => absurd hj (Nat.not_lt_zero j)) h
  | succ n ih =>
    rw [polls_succ, not_and] at h
    rw [poll]
    cases hfirst : faults i with
    | some e => exact ⟨e, rfl⟩
    | none =>
      obtain ⟨hanswer, hrest⟩ := Classical.not_imp.mp (h hfirst)
      rw [check_none_bind, hanswer]
      exact ih hrest

-- each item meets its condition in the state in which its turn comes
def InTurn {γ : Type} (f : γ → Prog σ ε (List α)) (ok : γ → σ → Prop) : List γ → σ → Prop
  | [], _ => True
  | x :: xs, s => ok x s ∧ ∀ out t, f x s = (.returned out, t) → InTurn f ok xs t

theorem gather_inTurn {γ : Type} {f : γ → Prog σ ε (List α)} {ok : γ → σ → Prop} {I : σ → Prop} {xs : List γ}
    (h : ∀ x s, I s → ok x s → I (f x s).2) (hI : I s) (hturn : InTurn f ok xs s) : I (gather f xs s).2 := by
  induction xs generalizing s with
  | nil => exact hI
  | cons x xs ih =>
    obtain ⟨hok, hrest⟩ := hturn
    have hx := h x s hI hok
    rw [gather]
    cases hrun : f x s with
    | mk o t =>
      rw [hrun] at hx
      cases o with
      | thrown e =>
        rw [bind_of_thrown hrun]
        exact hx
      | diverged =>
        rw [bind_of_diverged hrun]
        exact hx
      | returned out =>
        rw [bind_of_returned hrun, bind_pure_snd]
        exact ih hx (hrest out t hrun)

-- all are started; the first that throws decides, and the others go on
def settled : Outcome ε Unit → Outcome ε Unit → Outcome ε Unit
  | .returned _, o => o
  | .thrown e, _ => .thrown e
  | .diverged, .thrown e => .thrown e
  | .diverged, _ => .diverged

def together {γ : Type} (f : γ → Prog σ ε Unit) : List γ → Prog σ ε Unit
  | [] => pure ()
  | x :: xs => fun s => (settled (f x s).1 (together f xs (f x s).2).1, (together f xs (f x s).2).2)

theorem together_cons {γ : Type} (f : γ → Prog σ ε Unit) (x : γ) (xs : List γ) : together f (x :: xs) s =
    (settled (f x s).1 (together f xs (f x s).2).1, (together f xs (f x s).2).2) := rfl

theorem together_returned {γ κ : Type} {f : γ → Prog (List κ) ε Unit} {added : γ → List κ} {xs : List γ} {log : List κ}
    (h : ∀ x ∈ xs, ∀ log, f x log = (.returned (), log ++ added x)) :
    together f xs log = (.returned (), log ++ xs.flatMap added) := by
  induction xs generalizing log with
  | nil => rw [List.flatMap_nil, List.append_nil]; rfl
  | cons x xs ih =>
    obtain ⟨hx, hxs⟩ := List.forall_mem_cons.mp h
    rw [together_cons, hx, ih hxs, List.flatMap_cons, List.append_assoc]
    rfl

theorem together_thrown {γ : Type} {f : γ → Prog σ ε Unit} {x : γ} {xs : List γ} (hmem : x ∈ xs)
    (h : ∀ s, ∃ e, (f x s).1 = .thrown e) : ∃ e, (together f xs s).1 = .thrown e := by
  induction xs generalizing s with
  | nil => exact absurd hmem List.not_mem_nil
  | cons y ys ih =>
    rcases List.mem_cons.mp hmem with rfl | hys
    · obtain ⟨e, he⟩ := h s
      exact ⟨e, by rw [together_cons, he]; rfl⟩
    · obtain ⟨e, he⟩ := @ih (f y s).2 hys
      rw [together_cons, he]
      cases (f y s).1 with
      | returned _ => exact ⟨e, rfl⟩
      | thrown e' => exact ⟨e', rfl⟩
      | diverged => exact ⟨e, rfl⟩

end Program.Prog

namespace Program.Frame

variable {σ ε : Type} {F : Frame σ}

theorem keeps_check (fault : Option ε) : F.Keeps (Prog.check fault : Prog σ ε Unit) := by
  cases fault with
  | none => exact keeps_pure ()
  | some e => exact keeps_fail e

end Program.Frame
