import LmTransport.Proofs.AsyncnsDead
import LmTransport.Proofs.AsyncnsSafety

/-!
# What a step changes

As long as the net stands for the service, a step does one of seven things to the
queries and to what is in flight for them (`Change`). What an invariant has to say about a step
is said for each of the seven.

The first such invariant is about users who are patient: they cancel a query
only once it is done, or once the service has died. Then, as long as the service
lives, whatever is in flight is for a query that waits for it (`Held`). No id is
given out while it is in flight, and the net refines the service without any
assumption on ids.
-/

namespace LmTransport.Ref.Libasyncns

variable {libc : LibcCall → LibcResult → Prop} {s s' : Net} {t : Service} {capacity : Nat}
  {label : Label} {p : Ptr}

/-- Workers go on, and each of their replies is sent. -/
def Steady (s : Net) : Label → Prop
  | .reply w result send => send = true ∧
      ∀ id call, s.workers[w]? = some (.working id call) → sendReply id call result ≠ none
  | .leave _ | .announce .. | .kill _ => False
  | _ => True

instance (s : Net) : (label : Label) → Decidable (Steady s label)
  | .reply w result send =>
      match h : s.workers[w]? with
      | some (.working id call) =>
          decidable_of_iff (send = true ∧ (sendReply id call result).isSome) <| by
            rw [Steady, h]
            constructor
            · rintro ⟨hsend, hsome⟩
              refine ⟨hsend, fun i c hc => ?_⟩
              obtain ⟨rfl, rfl⟩ := Worker.working.inj (Option.some.inj hc)
              exact Option.isSome_iff_ne_none.mp hsome
            · intro hsteady
              exact ⟨hsteady.1, Option.isSome_iff_ne_none.mpr (hsteady.2 id call rfl)⟩
      | some .waiting | some .leaving | some .gone | none =>
          decidable_of_iff (send = true) <| by simp [Steady, h]
  | .submit .. | .receive _ | .fetch .. | .cancel _ | .getnext | .isdone _ | .take _ =>
      isTrue trivial
  | .leave _ | .announce .. | .kill _ => isFalse id

/-- What a step does to the queries and to what is in flight. -/
inductive Change (s : Net) (label : Label) (s' : Net) : Prop where
  | submitted (p : Ptr) (id : UInt32) (type : QueryType)
      (hlabel : ∃ call malloc send, label = .submit call malloc send)
      (hp : s.client.bare p = none)
      (hid : ∀ r q, s.client.bare r = some q → q.id ≠ id)
      (hbare : s'.client.bare = Function.update s.client.bare p (some { id, type }))
      (hflight : ∀ i, s'.inFlight i = s.inFlight i + if id = i then 1 else 0)
      (hdead : s'.client.dead = s.client.dead)
  | completed (p : Ptr) (q : Query) (outcome : Outcome) (hp : s.client.bare p = some q)
      (hdone : q.done = false)
      (hbare : s'.client.bare =
        Function.update s.client.bare p (some { q with outcome, done := true }))
      (hflight : ∀ i, s'.inFlight i + (if q.id = i then 1 else 0) = s.inFlight i)
      (hdead : s'.client.dead = s.client.dead)
  | dropped (id : UInt32) (hid : ∀ r q, s.client.bare r = some q → q.id ≠ id)
      (hbare : s'.client.bare = s.client.bare)
      (hflight : ∀ i, s'.inFlight i + (if id = i then 1 else 0) = s.inFlight i)
      (hdead : s'.client.dead = s.client.dead)
  | removed (p : Ptr) (q : Query) (hp : s.client.bare p = some q)
      (hlabel : (q.done = true ∧ ∃ f, label = .fetch f p) ∨ label = .cancel p)
      (hbare : s'.client.bare = Function.update s.client.bare p none)
      (hflight : ∀ i, s'.inFlight i = s.inFlight i) (hdead : s'.client.dead = s.client.dead)
  | died (d : List UInt8) (hd : d ∈ s.responses) (hfor : ∀ id, forResponse id d = false)
      (hbare : s'.client.bare = s.client.bare) (hflight : ∀ i, s'.inFlight i = s.inFlight i)
  | kept (hbare : s'.client.bare = s.client.bare) (hflight : ∀ i, s'.inFlight i = s.inFlight i)
      (hdead : s'.client.dead = s.client.dead)
  | lost (hlabel : ¬Steady s label) (hbare : s'.client.bare = s.client.bare)
      (hflight : ∀ i, s'.inFlight i ≤ s.inFlight i) (hdead : s'.client.dead = s.client.dead)

/-! ## One step, by its label -/

theorem Change.kept_self : Change s label s := .kept rfl (fun _ => rfl) rfl

theorem Implements.change_submit (h : Implements libc s t) {call : Call} {malloc : Option Ptr}
    {send : Bool} (hvalid : call.valid = true) (halloc : s.canAlloc malloc = true)
    (hstep : s.submit capacity call malloc send = some s') :
    Change s (.submit call malloc send) s' := by
  have hmalloc : ∀ p, malloc = some p → s.client.bare p = none := by
    rintro p rfl
    exact Asyncns.bare_eq_none.mpr (by simpa [Net.canAlloc] using halloc)
  rcases h.wf.submit send hvalid hmalloc with
    ⟨-, b, hsubmit, hbare, hdead, -⟩ | ⟨-, p, k, hp, -, hfree, hsubmit⟩
  · simp only [Net.submit, hsubmit, Option.some.injEq] at hstep
    subst hstep
    exact .kept hbare (fun _ => rfl) hdead
  · simp only [Net.submit, hsubmit, Option.ite_none_right_eq_some, Option.some.injEq] at hstep
    obtain ⟨-, rfl⟩ := hstep
    refine .submitted p (s.client.advance k).currentId call.type ⟨_, _, _, rfl⟩ (hmalloc p hp)
      (fun r q hr hid => ?_) (Asyncns.bare_insert call.type) (Net.inFlight_submit _ _ call) rfl
    exact (h.wf.advance k).id_ne hfree hr (congrArg slotOf hid)

theorem Implements.change_receive (h : Implements libc s t) {malloc : Nat → Bool}
    (hstep : s.receive malloc = some s') : Change s (.receive malloc) s' := by
  obtain ⟨-, d, rest, hresponses, hcases⟩ := h.receive_cases hstep
  have hflight : ∀ client i, (s.received client rest).inFlight i +
      (if forResponse i d then 1 else 0) = s.inFlight i := fun client =>
    (h.carries.received hresponses client).2
  rcases hcases with ⟨hfor, rfl⟩ | ⟨id, hfor, hid, rfl⟩ |
    ⟨p, q, call, result, outcome, hp, hdone, hfor, -, -, -, -, hbare, rfl⟩
  · refine .died d (by rw [hresponses]; simp) hfor rfl fun i => ?_
    have hi := hflight { s.client with dead := true } i
    rwa [hfor, if_neg (by simp), Nat.add_zero] at hi
  · refine .dropped id hid rfl (fun i => ?_) rfl
    have hi := hflight s.client i
    rw [hfor] at hi
    simpa only [decide_eq_true_eq] using hi
  · refine .completed p q.bare outcome (Asyncns.bare_of_heap hp) hdone hbare (fun i => ?_) rfl
    have hi := hflight ((s.client.store p outcome).complete p) i
    rw [hfor] at hi
    simp only [decide_eq_true_eq] at hi
    exact hi

theorem Implements.change_fetch (h : Implements libc s t) {f : Fetch}
    (haccepts : ∀ q, s.client.heap p = some q → f.accepts q.type = true)
    (hstep : (if (s.client.heap p).isNone then none
      else some (s.setClient ((asyncnsDone f p s.client).map (·.2)))) = some s') :
    Change s (.fetch f p) s' := by
  cases hp : s.client.heap p with
  | none => simp [hp] at hstep
  | some q =>
      have hfetch := h.wf.fetch hp (haccepts q hp)
      rw [hp] at hstep
      simp only [Option.isNone_some, Bool.false_eq_true, if_false, Option.some.injEq] at hstep
      by_cases hdead : s.client.dead = true
      · rw [if_pos hdead] at hfetch
        rw [hfetch] at hstep
        subst hstep
        exact .kept_self
      · rw [if_neg hdead] at hfetch
        cases hdone : q.done with
        | true =>
            rw [hdone, if_pos rfl] at hfetch
            rw [hfetch] at hstep
            subst hstep
            exact .removed p q.bare (Asyncns.bare_of_heap hp) (Or.inl ⟨hdone, f, rfl⟩)
              (Asyncns.bare_remove ..) (fun _ => rfl) (s.client.remove_dead p q)
        | false =>
            rw [hdone, if_neg (by simp)] at hfetch
            rw [hfetch] at hstep
            subst hstep
            exact .kept rfl (fun _ => rfl) rfl

theorem Implements.change_cancel (h : Implements libc s t)
    (hstep : (if (s.client.heap p).isNone then none
      else some (s.setClient (asyncnsCancel p s.client))) = some s') :
    Change s (.cancel p) s' := by
  cases hp : s.client.heap p with
  | none => simp [hp] at hstep
  | some q =>
      rw [hp, (h.wf.cancel hp).1] at hstep
      simp only [Option.isNone_some, Bool.false_eq_true, if_false, Option.some.injEq] at hstep
      subst hstep
      exact .removed p q.bare (Asyncns.bare_of_heap hp) (Or.inr rfl) (Asyncns.bare_remove ..)
        (fun _ => rfl) (s.client.remove_dead p q)

theorem Implements.change_reply (h : Implements libc s t) {w : Nat} {result : LibcResult}
    {send : Bool} (hproper : Proper libc s (.reply w result send))
    (hstep : s.reply capacity w result send = some s') :
    Change s (.reply w result send) s' := by
  have hresult : ∀ id call, s.workers[w]? = some (.working id call) →
      libc call result ∧ result.short = true := fun id call hw => by
    rw [Proper, hw] at hproper
    exact hproper
  obtain ⟨-, hflight, hclient, -⟩ := h.carries.reply hresult hstep
  have hbare : s'.client.bare = s.client.bare := by rw [hclient]
  have hdead : s'.client.dead = s.client.dead := by rw [hclient]
  obtain ⟨id, c, hw, hfits, ⟨hnone, -⟩ | ⟨hsend, -⟩ | ⟨d, -, hd, -, rfl⟩⟩ := reply_cases hstep
  · exact .lost (fun hsteady => hsteady.2 id c hw hnone) hbare hflight hdead
  · refine .lost (fun hsteady => ?_) hbare hflight hdead
    have hsent : send = true := hsteady.1
    rw [hsend] at hsent
    cases hsent
  · obtain ⟨call, rfl, -⟩ := h.carries.workers id c (List.mem_of_getElem? hw)
    have hreplies := repliesTo_of_sendReply id call result hfits hd
    exact .kept rfl (Net.inFlight_reply hw hreplies.forResponse) rfl

theorem Implements.change_workerEnds (h : Implements libc s t) (hlabel : ¬Steady s label)
    (hstep : s.workerEnds capacity label = some s') : Change s label s' := by
  obtain ⟨-, hflight, hclient, -⟩ := h.carries.workerEnds hstep
  exact .lost hlabel (by rw [hclient]) hflight (by rw [hclient])

theorem Implements.change (h : Implements libc s t) (hproper : Proper libc s label)
    (hstep : netStep capacity s label = some s') : Change s label s' := by
  cases label with
  | submit call malloc send =>
      simp only [netStep, h.alive, Bool.false_eq_true, if_false, Net.clientStep,
        Option.ite_none_right_eq_some] at hstep
      exact h.change_submit hproper.1 hstep.1 hstep.2
  | receive malloc =>
      simp only [netStep, h.alive, Bool.false_eq_true, if_false, Net.clientStep] at hstep
      exact h.change_receive hstep
  | fetch f p =>
      simp only [netStep, h.alive, Bool.false_eq_true, if_false, Net.clientStep] at hstep
      exact h.change_fetch hproper hstep
  | cancel p =>
      simp only [netStep, h.alive, Bool.false_eq_true, if_false, Net.clientStep] at hstep
      exact h.change_cancel hstep
  | getnext =>
      simp only [netStep, h.alive, Bool.false_eq_true, if_false, Net.clientStep,
        Option.some.injEq] at hstep
      exact hstep ▸ .kept_self
  | isdone p =>
      simp only [netStep, h.alive, Bool.false_eq_true, if_false, Net.clientStep,
        Option.ite_none_left_eq_some, Option.some.injEq] at hstep
      exact hstep.2 ▸ .kept_self
  | take w =>
      obtain ⟨-, hflight, hclient, -⟩ := h.carries.take hstep
      exact .kept (by rw [hclient]) hflight (by rw [hclient])
  | reply w result send => exact h.change_reply hproper hstep
  | leave w =>
      have hends : s.workerEnds capacity (.leave w) = some s' := hstep
      exact h.change_workerEnds id hends
  | announce w send =>
      have hends : s.workerEnds capacity (.announce w send) = some s' := hstep
      exact h.change_workerEnds id hends
  | kill w =>
      have hends : s.workerEnds capacity (.kill w) = some s' := hstep
      exact h.change_workerEnds id hends

/-! ## Patience -/

/-- The user cancels a query when it is done, or when the service has died. -/
def Patient (s : Net) : Label → Prop
  | .cancel p => s.client.dead = true ∨ ∀ q ∈ s.client.heap p, q.done = true
  | _ => True

instance (s : Net) : (label : Label) → Decidable (Patient s label)
  | .cancel p =>
      inferInstanceAs (Decidable (s.client.dead = true ∨ ∀ q ∈ s.client.heap p, q.done = true))
  | .submit .. | .receive _ | .fetch .. | .getnext | .isdone _ | .take _ | .reply .. | .leave _
  | .announce .. | .kill _ => isTrue trivial

/-- Unless the service has died, what is in flight is for a query that waits for
it. -/
def Held (s : Net) : Prop :=
  s.client.dead = false → ∀ id, 0 < s.inFlight id →
    ∃ p q, s.client.bare p = some q ∧ q.id = id ∧ q.done = false

theorem Held.step (h : Held s) (honce : ∀ id, s.inFlight id ≤ 1)
    (hdead : s.client.dead = true → s'.client.dead = true) (hpatient : Patient s label)
    (hchange : Change s label s') : Held s' := by
  intro halive id hpos
  have halive' : s.client.dead = false := by
    rw [← Bool.not_eq_true]
    intro hd
    rw [hdead hd] at halive
    cases halive
  cases hchange with
  | submitted p new type _ hp _ hbare hflight _ =>
      rw [hbare]
      by_cases hid : new = id
      · exact ⟨p, _, Function.update_self .., hid, rfl⟩
      · rw [hflight, if_neg hid, Nat.add_zero] at hpos
        obtain ⟨r, q, hr, hq⟩ := h halive' id hpos
        have hne : r ≠ p := fun hrp => by simp [← hrp, hr] at hp
        exact ⟨r, q, by rw [Function.update_of_ne hne, hr], hq⟩
  | completed p q outcome hp _ hbare hflight _ =>
      have hold := hflight id
      have hone := honce id
      obtain ⟨r, q', hr, hid, hq'⟩ := h halive' id (by omega)
      have hne : r ≠ p := fun hrp => by
        -- the only thing in flight for the query has arrived
        rw [hrp, hp, Option.some.injEq] at hr
        rw [hr, if_pos hid] at hold
        omega
      exact ⟨r, q', by rw [hbare, Function.update_of_ne hne, hr], hid, hq'⟩
  | dropped _ _ hbare hflight _ =>
      have hold := hflight id
      rw [hbare]
      exact h halive' id (by omega)
  | removed p q hp hlabel hbare hflight _ =>
      rw [hflight] at hpos
      obtain ⟨r, q', hr, hid, hq'⟩ := h halive' id hpos
      have hdone : q.done = true := by
        rcases hlabel with ⟨hdone, -⟩ | rfl
        · exact hdone
        · obtain ⟨x, hx, rfl⟩ := Asyncns.exists_heap_of_bare hp
          rcases hpatient with hd | hall
          · rw [halive'] at hd
            cases hd
          · exact hall x hx
      have hne : r ≠ p := fun hrp => by
        rw [hrp, hp, Option.some.injEq] at hr
        rw [← hr, hdone] at hq'
        cases hq'
      exact ⟨r, q', by rw [hbare, Function.update_of_ne hne, hr], hid, hq'⟩
  | died _ _ _ hbare hflight | kept hbare hflight _ =>
      rw [hflight] at hpos
      rw [hbare]
      exact h halive' id hpos
  | lost _ hbare hflight _ =>
      rw [hbare]
      exact h halive' id (Nat.lt_of_lt_of_le hpos (hflight id))

/-- An id that is given out is not the id of any query, so nothing is in flight
for it. -/
theorem Held.fresh (h : Held s) {done : List Ptr} (hwf : s.client.Wf done) (label : Label) :
    Fresh s label := by
  cases label with
  | submit call malloc send =>
      intro haccept b hb
      have hroom : s.client.nQueries < maxQueries := by
        rw [← Nat.not_le]
        exact fun hfull => haccept (Or.inr (Or.inl hfull))
      have halive : s.client.dead = false := by
        rw [← Bool.not_eq_true]
        exact fun hd => haccept (Or.inl hd)
      obtain ⟨k, hk, hfree⟩ := hwf.exists_skip hroom
      obtain rfl := Option.some.inj (hk.symm.trans hb)
      by_contra hpos
      obtain ⟨p, q, hp, hid, -⟩ := h halive _ (Nat.pos_of_ne_zero hpos)
      exact (hwf.advance k).id_ne hfree hp (congrArg slotOf hid)
  | _ => trivial

end LmTransport.Ref.Libasyncns
