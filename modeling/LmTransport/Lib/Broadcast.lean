import Mathlib.Data.List.Basic

/-!
# Nested broadcasts

A broadcast has an audience and calls its members in turn. A member that is
called may pass the message on in a broadcast of its own, and that one runs to
its end before the next member is called. So what is under way is a stack of
frames, each with the members it has still to call, and what has begun is a
list of rounds, each of which remembers the round it passes on.

`Fair` says that nobody is left out, called twice or called by mistake: who has
passed a round on, with who is still waiting for it, is the audience of that
round. The three things that happen to a stack keep it: a round begins, the
member whose turn it is passes the message on, and a round with nobody left to
call ends.
-/

namespace Broadcast

variable {τ κ : Type*}

structure Round (τ κ : Type*) where
  cause : Option Nat
  source : τ
  message : κ
  audience : List τ
deriving DecidableEq, Repr

structure Frame (τ κ : Type*) where
  round : Nat
  source : τ
  message : κ
  pending : List τ
deriving DecidableEq, Repr

/-- Who passed round `i` on. -/
def relays (rounds : List (Round τ κ)) (i : Nat) : List τ :=
  (rounds.filter fun r => r.cause == some i).map Round.source

/-- Who is still to be called about round `i`. -/
def waiting (stack : List (Frame τ κ)) (i : Nat) : List τ :=
  (stack.filter fun f => f.round == i).flatMap Frame.pending

structure Fair (rounds : List (Round τ κ)) (stack : List (Frame τ κ)) : Prop where
  relayed : ∀ i r, rounds[i]? = some r → (relays rounds i ++ waiting stack i).Perm r.audience
  same : ∀ i r r', rounds[i]? = some r → r' ∈ rounds → r'.cause = some i →
    r'.message = r.message

/-- Frames are about rounds that have begun, and so are causes. -/
structure Coherent (rounds : List (Round τ κ)) (stack : List (Frame τ κ)) : Prop where
  frames : ∀ f ∈ stack, ∃ r, rounds[f.round]? = some r ∧ r.source = f.source ∧
    r.message = f.message
  causes : ∀ r ∈ rounds, ∀ i, r.cause = some i → i < rounds.length

/-! ## Bookkeeping -/

theorem relays_append (rounds : List (Round τ κ)) (r : Round τ κ) (i : Nat) :
    relays (rounds ++ [r]) i =
      relays rounds i ++ if r.cause = some i then [r.source] else [] := by
  unfold relays
  rw [List.filter_append, List.map_append]
  by_cases h : r.cause = some i
  · simp [h]
  · simp [h]

theorem waiting_cons (f : Frame τ κ) (stack : List (Frame τ κ)) (i : Nat) :
    waiting (f :: stack) i = (if f.round = i then f.pending else []) ++ waiting stack i := by
  unfold waiting
  by_cases h : f.round = i
  · simp [h]
  · simp [h]

theorem Coherent.lt {rounds : List (Round τ κ)} {stack : List (Frame τ κ)}
    (h : Coherent rounds stack) {f : Frame τ κ} (hf : f ∈ stack) :
    f.round < rounds.length := by
  obtain ⟨r, hr, -⟩ := h.frames f hf
  obtain ⟨hlt, -⟩ := List.getElem?_eq_some_iff.mp hr
  exact hlt

/-- Nobody has heard of a round that has not begun. -/
theorem Coherent.relays_new {rounds : List (Round τ κ)} {stack : List (Frame τ κ)}
    (h : Coherent rounds stack) : relays rounds rounds.length = [] := by
  unfold relays
  rw [List.map_eq_nil_iff, List.filter_eq_nil_iff]
  intro r hr hcause
  rw [beq_iff_eq] at hcause
  have hlt := h.causes r hr _ hcause
  omega

theorem Coherent.waiting_new {rounds : List (Round τ κ)} {stack : List (Frame τ κ)}
    (h : Coherent rounds stack) : waiting stack rounds.length = [] := by
  unfold waiting
  have hnone : stack.filter (fun f => f.round == rounds.length) = [] := by
    rw [List.filter_eq_nil_iff]
    intro f hf hround
    rw [beq_iff_eq] at hround
    have hlt := h.lt hf
    omega
  rw [hnone, List.flatMap_nil]

theorem getElem?_append_cases {α : Type*} {l : List α} {a b : α} {i : Nat}
    (h : (l ++ [a])[i]? = some b) : l[i]? = some b ∨ (i = l.length ∧ b = a) := by
  rcases Nat.lt_or_ge i l.length with hlt | hge
  · rw [List.getElem?_append_left hlt] at h
    exact Or.inl h
  · rw [List.getElem?_append_right hge, List.getElem?_eq_some_iff] at h
    obtain ⟨hlt, hb⟩ := h
    rw [List.length_singleton] at hlt
    refine Or.inr ⟨by omega, ?_⟩
    rw [← hb, List.getElem_singleton]

/-! ## What happens to a stack -/

theorem Coherent.begin {rounds : List (Round τ κ)} {stack : List (Frame τ κ)}
    (h : Coherent rounds stack) {r : Round τ κ} (hcause : ∀ i, r.cause = some i → i < rounds.length)
    (pending : List τ) :
    Coherent (rounds ++ [r]) (⟨rounds.length, r.source, r.message, pending⟩ :: stack) where
  frames f hf := by
    rcases List.mem_cons.mp hf with rfl | hf
    · exact ⟨r, List.getElem?_concat_length, rfl, rfl⟩
    · obtain ⟨r', hr', hsame⟩ := h.frames f hf
      refine ⟨r', ?_, hsame⟩
      rw [List.getElem?_append_left (h.lt hf), hr']
  causes r' hr' i hi := by
    rw [List.length_append, List.length_singleton]
    rcases List.mem_append.mp hr' with hold | hnew
    · have hlt := h.causes r' hold i hi
      omega
    · rw [List.mem_singleton.mp hnew] at hi
      have hlt := hcause i hi
      omega

theorem Coherent.tail {rounds : List (Round τ κ)} {f : Frame τ κ} {stack : List (Frame τ κ)}
    (h : Coherent rounds (f :: stack)) : Coherent rounds stack :=
  ⟨fun g hg => h.frames g (List.mem_cons_of_mem f hg), h.causes⟩

/-- A frame goes on to the next member. -/
theorem Coherent.advance {rounds : List (Round τ κ)} {f g : Frame τ κ}
    {stack : List (Frame τ κ)} (h : Coherent rounds (f :: stack)) (hround : g.round = f.round)
    (hsource : g.source = f.source) (hmessage : g.message = f.message) :
    Coherent rounds (g :: stack) := by
  refine ⟨fun g' hg' => ?_, h.causes⟩
  rcases List.mem_cons.mp hg' with rfl | hg'
  · rw [hround, hsource, hmessage]
    exact h.frames f (List.mem_cons_self ..)
  · exact h.frames g' (List.mem_cons_of_mem f hg')

/-- A round that passes nothing on begins. -/
theorem Fair.begin {rounds : List (Round τ κ)} {stack : List (Frame τ κ)}
    (h : Fair rounds stack) (hc : Coherent rounds stack) {r : Round τ κ}
    (hcause : r.cause = none) {pending : List τ} (hp : pending.Perm r.audience) :
    Fair (rounds ++ [r]) (⟨rounds.length, r.source, r.message, pending⟩ :: stack) where
  relayed i r' hr' := by
    rw [relays_append, hcause, if_neg nofun, List.append_nil, waiting_cons]
    rcases getElem?_append_cases hr' with hold | ⟨hi, rfl⟩
    · have hlt := (List.getElem?_eq_some_iff.mp hold).1
      rw [if_neg (show rounds.length ≠ i by omega), List.nil_append]
      exact h.relayed i r' hold
    · rw [hi, hc.relays_new, hc.waiting_new, if_pos rfl, List.nil_append, List.append_nil]
      exact hp
  same i r' r'' hr' hr'' hi := by
    rcases List.mem_append.mp hr'' with hr'' | hr''
    · rcases getElem?_append_cases hr' with hold | ⟨hlen, -⟩
      · exact h.same i r' r'' hold hr'' hi
      · have hlt := hc.causes r'' hr'' i hi
        omega
    · rw [List.mem_singleton.mp hr'', hcause] at hi
      cases hi

/-- The member whose turn it is passes the message on. -/
theorem Fair.relay {rounds : List (Round τ κ)} {stack : List (Frame τ κ)} {i : Nat} {x y : τ}
    {s : κ} {rest : List τ} (h : Fair rounds (⟨i, x, s, y :: rest⟩ :: stack))
    (hc : Coherent rounds (⟨i, x, s, y :: rest⟩ :: stack)) {audience pending : List τ}
    (hp : pending.Perm audience) :
    Fair (rounds ++ [⟨some i, y, s, audience⟩])
      (⟨rounds.length, y, s, pending⟩ :: ⟨i, x, s, rest⟩ :: stack) where
  relayed j r hr := by
    have hi : i < rounds.length := hc.lt (List.mem_cons_self ..)
    rw [relays_append, waiting_cons, waiting_cons]
    rcases getElem?_append_cases hr with hold | ⟨hj, rfl⟩
    · have hlt := (List.getElem?_eq_some_iff.mp hold).1
      have hperm := h.relayed j r hold
      rw [waiting_cons] at hperm
      rw [if_neg (show rounds.length ≠ j by omega), List.nil_append]
      by_cases hij : i = j
      · subst hij
        simp only [if_true] at hperm ⊢
        rwa [List.append_assoc, List.singleton_append, ← List.cons_append]
      · have hne : ¬(some i = some j) := fun heq => hij (Option.some.inj heq)
        simp only [if_neg hij, if_neg hne, List.nil_append, List.append_nil] at hperm ⊢
        exact hperm
    · have hij : i ≠ j := by omega
      have hne : ¬(some i = some j) := fun heq => hij (Option.some.inj heq)
      have hnew := hc.tail.waiting_new
      rw [hj] at hij hne ⊢
      simp only [hc.relays_new, hnew, if_neg hij, if_neg hne, if_true, List.nil_append,
        List.append_nil]
      exact hp
  same j r r' hr hr' hj := by
    rcases List.mem_append.mp hr' with hr' | hr'
    · rcases getElem?_append_cases hr with hold | ⟨hlen, -⟩
      · exact h.same j r r' hold hr' hj
      · have hlt := hc.causes r' hr' j hj
        omega
    · rw [List.mem_singleton.mp hr'] at hj ⊢
      injection hj with hj
      subst hj
      obtain ⟨r₀, hr₀, -, hmessage⟩ := hc.frames _ (List.mem_cons_self ..)
      have hlt : i < rounds.length := hc.lt (List.mem_cons_self ..)
      rw [List.getElem?_append_left hlt, hr₀, Option.some.injEq] at hr
      rw [← hr, hmessage]

/-- A round with nobody left to call ends. -/
theorem Fair.finish {rounds : List (Round τ κ)} {stack : List (Frame τ κ)} {i : Nat} {x : τ}
    {s : κ} (h : Fair rounds (⟨i, x, s, []⟩ :: stack)) : Fair rounds stack where
  relayed j r hr := by
    have hperm := h.relayed j r hr
    rw [waiting_cons, ite_self, List.nil_append] at hperm
    exact hperm
  same := h.same

end Broadcast
