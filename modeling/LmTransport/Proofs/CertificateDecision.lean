import LmTransport.Proofs.Handshake
import LmTransport.Ref.CertificateChecks

/-!
# What the certificate decision rests on

A problem that holds is one that GnuTLS has answered for: a test of a `status`
that was not set finds nothing out. The checks are right exactly when they get
to `status` only after it has been set, and to the first certificate only when
there is one. Both depend on where the feedback function stops them. If it
accepts what it is told when the verification itself has failed, the next test
is one of an uninitialised variable; if it accepts a missing list, the list is
looked into.

The checks are run in parts, and a part is gone through exactly if everything
that holds in the parts before it has been accepted.
-/

namespace LmTransport.Ref.Gnutls

/-! ## Running the checks -/

/-- The problems among the steps, as they are asked about. -/
def problemsOf (steps : List CheckStep) : List (Bool × LmSSLStatus) :=
  steps.filterMap fun
    | .look _ => none
    | .problem holds status => some (holds, status)

/-- What is asked about when nothing is refused. -/
def questions (steps : List CheckStep) : List LmSSLStatus := holding (problemsOf steps)

@[simp] theorem questions_nil : questions [] = [] := rfl

@[simp] theorem questions_look (l : Look) (steps : List CheckStep) :
    questions (.look l :: steps) = questions steps := rfl

@[simp] theorem questions_problem (holds : Bool) (p : LmSSLStatus) (steps : List CheckStep) :
    questions (.problem holds p :: steps) =
      if holds then p :: questions steps else questions steps := by
  cases holds <;> rfl

/-- The problem a step of the way was about. -/
def CheckEvent.question : CheckEvent → Option LmSSLStatus
  | .look _ => none
  | .asked p _ => some p

/-- Without the looks it is what is asked in turn. -/
theorem runChecks_askInTurn (ask : Feedback) (asked : List LmSSLStatus)
    (steps : List CheckStep) :
    askInTurn ask asked (problemsOf steps) =
      ((runChecks ask asked steps).1,
        asked ++ (runChecks ask asked steps).2.filterMap CheckEvent.question) := by
  induction steps generalizing asked with
  | nil => exact Prod.ext rfl (List.append_nil _).symm
  | cons step steps ih =>
      cases step with
      | look l => exact ih asked
      | problem holds p =>
          show askInTurn ask asked ((holds, p) :: problemsOf steps) = _
          rw [askInTurn, runChecks]
          split
          · split
            · rw [ih, List.append_assoc]
              rfl
            · rfl
          · exact ih asked

theorem runChecks_iff {ask : Feedback} {asked : List LmSSLStatus} {steps : List CheckStep} :
    (runChecks ask asked steps).1 = true ↔ Accepted ask asked (questions steps) := by
  have hsame := congrArg Prod.fst (runChecks_askInTurn ask asked steps)
  simp only [] at hsame
  rw [← hsame, askInTurn_iff]
  rfl

/-- The second part is run if the first comes to its end. -/
theorem runChecks_append (ask : Feedback) (asked : List LmSSLStatus)
    (steps more : List CheckStep) :
    runChecks ask asked (steps ++ more) =
      if (runChecks ask asked steps).1 then
        let r := runChecks ask (asked ++ questions steps) more
        (r.1, (runChecks ask asked steps).2 ++ r.2)
      else (false, (runChecks ask asked steps).2) := by
  induction steps generalizing asked with
  | nil => simp [runChecks]
  | cons step steps ih =>
      cases step with
      | look l =>
          rw [List.cons_append, runChecks, ih asked, runChecks]
          simp only [questions_look]
          split <;> rfl
      | problem holds p =>
          cases holds with
          | false => simpa [runChecks] using ih asked
          | true =>
              cases hp : ask asked p with
              | false => simp [runChecks, hp]
              | true =>
                  have hrest := ih (asked ++ [p])
                  simp only [List.cons_append, runChecks, hp, if_true, hrest, questions_problem]
                  split <;> simp

/-- What is asked about holds. -/
theorem asked_mem {ask : Feedback} {asked : List LmSSLStatus} {steps : List CheckStep}
    {p : LmSSLStatus} {a : Bool} (h : .asked p a ∈ (runChecks ask asked steps).2) :
    p ∈ questions steps := by
  induction steps generalizing asked with
  | nil => cases h
  | cons step steps ih =>
      cases step with
      | look l =>
          rcases List.mem_cons.mp h with heq | hmem
          · cases heq
          · exact ih hmem
      | problem holds q =>
          cases holds with
          | false => exact ih h
          | true =>
              rw [questions_problem, if_pos rfl]
              simp only [runChecks, if_true] at h
              split at h
              · rcases List.mem_cons.mp h with heq | hmem
                · cases heq
                  exact List.mem_cons_self
                · exact List.mem_cons_of_mem q (ih hmem)
              · cases List.mem_singleton.mp h
                exact List.mem_cons_self

/-- Either all that holds is asked about and accepted, or something is asked
about and refused. -/
theorem runChecks_answers (ask : Feedback) (asked : List LmSSLStatus) (steps : List CheckStep) :
    ((runChecks ask asked steps).1 = true ∧
        ∀ p, (p ∈ questions steps → .asked p true ∈ (runChecks ask asked steps).2) ∧
          .asked p false ∉ (runChecks ask asked steps).2) ∨
      ((runChecks ask asked steps).1 = false ∧
        ∃ p, .asked p false ∈ (runChecks ask asked steps).2) := by
  induction steps generalizing asked with
  | nil => exact Or.inl ⟨rfl, fun p => ⟨nofun, nofun⟩⟩
  | cons step steps ih =>
      cases step with
      | look l =>
          refine (ih asked).imp (fun h => ⟨h.1, fun p => ⟨fun hp => ?_, fun hp => ?_⟩⟩)
            fun h => ⟨h.1, h.2.imp fun p hp => List.mem_cons_of_mem _ hp⟩
          · exact List.mem_cons_of_mem _ ((h.2 p).1 hp)
          · rcases List.mem_cons.mp hp with heq | hmem
            · cases heq
            · exact (h.2 p).2 hmem
      | problem holds q =>
          cases holds with
          | false => exact ih asked
          | true =>
              cases hq : ask asked q with
              | false =>
                  right
                  simp only [runChecks, hq, if_true]
                  exact ⟨rfl, q, List.mem_cons_self⟩
              | true =>
                  simp only [runChecks, hq, if_true, questions_problem]
                  refine (ih (asked ++ [q])).imp
                    (fun h => ⟨h.1, fun p => ⟨fun hp => ?_, fun hp => ?_⟩⟩)
                    fun h => ⟨h.1, h.2.imp fun p hp => List.mem_cons_of_mem _ hp⟩
                  · rcases List.mem_cons.mp hp with rfl | hmem
                    · exact List.mem_cons_self
                    · exact List.mem_cons_of_mem _ ((h.2 p).1 hmem)
                  · rcases List.mem_cons.mp hp with heq | hmem
                    · cases heq
                    · exact (h.2 p).2 hmem

theorem look_mem {ask : Feedback} {asked : List LmSSLStatus} {steps : List CheckStep} {l : Look}
    (h : .look l ∈ (runChecks ask asked steps).2) : .look l ∈ steps := by
  induction steps generalizing asked with
  | nil => cases h
  | cons step steps ih =>
      cases step with
      | look l' =>
          rcases List.mem_cons.mp h with heq | hmem
          · cases heq
            exact List.mem_cons_self
          · exact List.mem_cons_of_mem _ (ih hmem)
      | problem holds q =>
          simp only [runChecks] at h
          refine List.mem_cons_of_mem _ ?_
          split at h
          · split at h
            · rcases List.mem_cons.mp h with heq | hmem
              · cases heq
              · exact ih hmem
            · cases List.mem_singleton.mp h
          · exact ih h

/-- The first look of a kind is taken exactly if nothing before it is
refused. -/
theorem look_mem_iff {ask : Feedback} {asked : List LmSSLStatus} {steps more : List CheckStep}
    {l : Look} (hfirst : .look l ∉ steps) :
    .look l ∈ (runChecks ask asked (steps ++ .look l :: more)).2 ↔
      Accepted ask asked (questions steps) := by
  rw [← runChecks_iff, runChecks_append]
  split
  · next hdone => simp [hdone, runChecks]
  · next hstop =>
      exact ⟨fun h => absurd (look_mem h) hfirst, fun h => absurd h hstop⟩

theorem mem_questions {steps : List CheckStep} {p : LmSSLStatus} :
    p ∈ questions steps ↔ .problem true p ∈ steps := by
  induction steps with
  | nil => simp
  | cons step steps ih =>
      cases step with
      | look l => simp [ih]
      | problem holds q => cases holds <;> simp [ih]

/-! ## The decision -/

section
variable (ask : Feedback) (peer : Peer) (server : String) (w : World)

/-- The problem is there. Of a verification that failed there is no status, and
the name and the fingerprint are those of an X.509 certificate. -/
def ProblemHolds : LmSSLStatus → Prop
  | .noCertFound => peer.rc = eNoCertificateFound ∨
      (peer.certType = .x509 ∧ (peer.certList = false ∨ peer.importRc ≠ 0))
  | .genericError => peer.rc ≠ 0 ∨ (peer.certType = .x509 ∧ peer.fingerprintRc < 0)
  | .untrustedCert => peer.rc = 0 ∧
      (peer.status &&& certInvalid ≠ 0 ∨ peer.status &&& certRevoked ≠ 0)
  | .certExpired => peer.expirationTime < peer.expirationNow
  | .certNotActivated => peer.activationNow < peer.activationTime
  | .certHostnameMismatch => peer.certType = .x509 ∧ peer.checkHostname server = false
  | .certFingerprintMismatch => peer.certType = .x509 ∧ 0 ≤ peer.fingerprintRc ∧
      ∃ e, w.secure.expectedFingerprint = some e ∧ fingerprintDiffers e peer = true

/-- What happens in a verification. -/
def verifyTrace : List CheckEvent :=
  (runChecks ask [] (verifyChecks peer server w.secure.expectedFingerprint)).2

/-- The verdict is `TRUE` just when everything that holds has been accepted,
nothing else is reported, and nothing is looked at that is not there. -/
structure RightDecision : Prop where
  verdict : (gnutlsChannelVerifyCertificate ask peer server w).1 = true ↔
    ∀ p, ProblemHolds peer server w p →
      .asked p true ∈ verifyTrace ask peer server w ∧
        .asked p false ∉ verifyTrace ask peer server w
  reports : ∀ p a, .asked p a ∈ verifyTrace ask peer server w → ProblemHolds peer server w p
  status : .look .status ∈ verifyTrace ask peer server w → peer.rc = 0
  certificate : .look .firstCertificate ∈ verifyTrace ask peer server w → peer.certList = true

/-- The feedback function stops the checks before `status` is tested. -/
def StopsAtVerification : Prop := ¬ Accepted ask [] (questions (verifyPeersChecks peer))

/-- It stops them when it is told that there is no certificate, if not
before. -/
def StopsAtMissingList : Prop :=
  ¬ Accepted ask [] (questions (verifyPeersChecks peer ++ statusChecks peer) ++ [.noCertFound])

end

section
variable {ask : Feedback} {peer : Peer} {server : String} {w : World}

/-- The looks are the only thing that is new. -/
theorem verifyChecks_problems (peer : Peer) (server : String) (expected : Option (List UInt8)) :
    problemsOf (verifyChecks peer server expected) = certificateProblems peer server expected := by
  unfold verifyChecks certificateProblems certificateChecks x509Problems
  split
  · split <;> rfl
  · rfl

theorem verify_runChecks (ask : Feedback) (peer : Peer) (server : String) (w : World) :
    (gnutlsChannelVerifyCertificate ask peer server w).1 =
      (runChecks ask [] (verifyChecks peer server w.secure.expectedFingerprint)).1 := by
  have hverdict := congrArg Prod.fst
    (runChecks_askInTurn ask [] (verifyChecks peer server w.secure.expectedFingerprint))
  rw [verifyChecks_problems] at hverdict
  unfold gnutlsChannelVerifyCertificate
  simp only [hverdict]
  split
  · next h => exact h.1.symm
  · rfl

/-- What holds is asked about unless the checks end before; and nothing else is,
unless the status was not set. -/
theorem problemHolds_iff {p : LmSSLStatus} (hstatus : p = .untrustedCert → peer.rc = 0) :
    p ∈ questions (verifyChecks peer server w.secure.expectedFingerprint) ↔
      ProblemHolds peer server w p := by
  rw [mem_questions]
  unfold verifyChecks verifyPeersChecks statusChecks certificateChecks
  by_cases hx : peer.certType = .x509
  · rw [if_pos hx]
    by_cases hf : 0 ≤ peer.fingerprintRc
    · rw [if_pos hf]
      have hnot : ¬ peer.fingerprintRc < 0 := Int.not_lt.mpr hf
      cases p <;> simp [ProblemHolds, hx, hf, hnot, hstatus, Option.any_eq_true]
    · rw [if_neg hf]
      have hneg : peer.fingerprintRc < 0 := Int.not_le.mp hf
      cases p <;> simp [ProblemHolds, hx, hf, hneg, hstatus]
  · rw [if_neg hx]
    cases p <;> simp [ProblemHolds, hx, hstatus]

theorem look_status_iff :
    .look .status ∈ verifyTrace ask peer server w ↔ ¬ StopsAtVerification ask peer := by
  unfold StopsAtVerification verifyTrace
  rw [not_not]
  exact look_mem_iff (by simp [verifyPeersChecks])

theorem look_certificate_iff (hx : peer.certType = .x509) (hnone : peer.certList = false) :
    .look .firstCertificate ∈ verifyTrace ask peer server w ↔ ¬ StopsAtMissingList ask peer := by
  have hquestions : questions (verifyPeersChecks peer ++ statusChecks peer) ++ [.noCertFound] =
      questions (verifyPeersChecks peer ++ (statusChecks peer ++ [.problem true .noCertFound])) := by
    unfold questions holding problemsOf
    simp
  have hsteps : verifyChecks peer server w.secure.expectedFingerprint =
      (verifyPeersChecks peer ++ (statusChecks peer ++ [.problem true .noCertFound])) ++
        certificateChecks peer server w.secure.expectedFingerprint := by
    unfold verifyChecks
    rw [if_pos hx, hnone]
    simp
  unfold StopsAtMissingList verifyTrace
  rw [not_not, hquestions, hsteps]
  exact look_mem_iff (by simp [verifyPeersChecks, statusChecks])

/-- The certificate is only looked at if it is of the type that is looked
at. -/
theorem look_certificate_x509
    (h : .look .firstCertificate ∈ verifyTrace ask peer server w) : peer.certType = .x509 := by
  by_contra hx
  have hmem := look_mem h
  unfold verifyChecks at hmem
  rw [if_neg hx] at hmem
  simp [verifyPeersChecks, statusChecks] at hmem

/-- That a certificate is not trusted is said only after the look at the
status. -/
theorem untrusted_status {a : Bool}
    (h : .asked .untrustedCert a ∈ verifyTrace ask peer server w) :
    .look .status ∈ verifyTrace ask peer server w := by
  rw [look_status_iff, StopsAtVerification, not_not, ← runChecks_iff]
  unfold verifyTrace verifyChecks at h
  rw [runChecks_append] at h
  split at h
  · next hdone => exact hdone
  · have hmem := asked_mem h
    rw [mem_questions] at hmem
    simp [verifyPeersChecks] at hmem

/-- The decision is right exactly if the verification succeeded or the feedback
function stops at its failure, and an X.509 peer has a certificate or the
feedback function stops when it is told that there is none. -/
theorem certificate_decision_iff (ask : Feedback) (peer : Peer) (server : String) (w : World) :
    RightDecision ask peer server w ↔
      (peer.rc = 0 ∨ StopsAtVerification ask peer) ∧
        (peer.certType = .x509 → peer.certList = true ∨ StopsAtMissingList ask peer) := by
  constructor
  · intro h
    refine ⟨?_, fun hx => ?_⟩
    · by_cases hstop : StopsAtVerification ask peer
      · exact Or.inr hstop
      · exact Or.inl (h.status (look_status_iff.mpr hstop))
    · cases hlist : peer.certList with
      | true => exact Or.inl rfl
      | false =>
          refine Or.inr (by_contra fun hgo => ?_)
          have hthere := h.certificate ((look_certificate_iff hx hlist).mpr hgo)
          rw [hlist] at hthere
          cases hthere
  · rintro ⟨hverified, hlist⟩
    have hstatus : .look .status ∈ verifyTrace ask peer server w → peer.rc = 0 := fun hlook =>
      hverified.resolve_right (look_status_iff.mp hlook)
    have hreports : ∀ p a, .asked p a ∈ verifyTrace ask peer server w →
        ProblemHolds peer server w p := by
      intro p a hasked
      refine (problemHolds_iff fun hp => ?_).mp (asked_mem hasked)
      exact hstatus (untrusted_status (hp ▸ hasked))
    refine ⟨?_, hreports, hstatus, fun hlook => ?_⟩
    · rw [verify_runChecks]
      rcases runChecks_answers ask []
        (verifyChecks peer server w.secure.expectedFingerprint) with ⟨hdone, hall⟩ | ⟨hstop, p, hp⟩
      · refine ⟨fun _ p hp => ⟨(hall p).1 ((problemHolds_iff ?_).mpr hp), (hall p).2⟩,
          fun _ => hdone⟩
        rintro rfl
        exact hp.1
      · rw [hstop]
        refine ⟨nofun, fun hall => ?_⟩
        exact absurd hp (hall p (hreports p false hp)).2
    · cases hthere : peer.certList with
      | true => rfl
      | false =>
          have hx := look_certificate_x509 hlook
          have hgo := (look_certificate_iff hx hthere).mp hlook
          exact absurd ((hlist hx).resolve_left (by simp [hthere])) hgo

end

/-! ## A peer without a certificate -/

/-- The verification fails, and the variable happens to hold
`GNUTLS_CERT_INVALID`. -/
def namelessPeer : Peer :=
  { goodPeer with rc := eNoCertificateFound, status := certInvalid, certList := false }

/-- The stub accepts that there is no certificate. Then a certificate that is
not there is reported as not trusted, and looked into. -/
theorem certificate_decision_wrong :
    .look .status ∈ verifyTrace alwaysContinue namelessPeer "example" {} ∧
      .asked .untrustedCert true ∈ verifyTrace alwaysContinue namelessPeer "example" {} ∧
      ¬ ProblemHolds namelessPeer "example" {} .untrustedCert ∧
      .look .firstCertificate ∈ verifyTrace alwaysContinue namelessPeer "example" {} ∧
      ¬ RightDecision alwaysContinue namelessPeer "example" {} := by
  have hlook : .look .firstCertificate ∈ verifyTrace alwaysContinue namelessPeer "example" {} := by
    decide
  refine ⟨by decide, by decide, fun h => absurd h.1 (by decide), hlook, fun h => ?_⟩
  have hthere := h.certificate hlook
  cases hthere

end LmTransport.Ref.Gnutls
