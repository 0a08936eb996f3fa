import LmTransport.Ref.GnutlsChannel

/-!
# `gnutls_channel_verify_certificate`, look by look

The verification once more, with what it looks at. `status` is a local variable
that only a successful `gnutls_certificate_verify_peers2` sets, and
`&cert_list[0]` is handed to GnuTLS twice whether or not there is a list. So
besides the problems the function goes through there are the places where it
looks at the one or the other, in the order of the source.
-/

namespace LmTransport.Ref.Gnutls

/-- Something the function relies on. -/
inductive Look where
  | status
  | firstCertificate
deriving DecidableEq, Repr

inductive CheckStep where
  | look (l : Look)
  | problem (holds : Bool) (status : LmSSLStatus)
deriving DecidableEq, Repr

/-- What happens on the way, with the answers of the feedback function. -/
inductive CheckEvent where
  | look (l : Look)
  | asked (status : LmSSLStatus) (answer : Bool)
deriving DecidableEq, Repr

/-- The checks up to the first problem that is not accepted. `asked` is what has
been asked before. -/
def runChecks (ask : Feedback) : List LmSSLStatus → List CheckStep → Bool × List CheckEvent
  | _, [] => (true, [])
  | asked, .look l :: rest =>
      let r := runChecks ask asked rest
      (r.1, .look l :: r.2)
  | asked, .problem holds status :: rest =>
      if holds then
        if ask asked status then
          let r := runChecks ask (asked ++ [status]) rest
          (r.1, .asked status true :: r.2)
        else (false, [.asked status false])
      else runChecks ask asked rest

section
variable (peer : Peer) (server : String) (expected : Option (List UInt8))

/-- Before `status` is tested. -/
def verifyPeersChecks : List CheckStep :=
  [.problem (peer.rc == eNoCertificateFound) .noCertFound,
    .problem (peer.rc != 0) .genericError,
    .problem (peer.rc == eNoCertificateFound) .noCertFound]

/-- The test of `status`, and the two times. -/
def statusChecks : List CheckStep :=
  [.look .status,
    .problem (peer.status &&& certInvalid != 0 || peer.status &&& certRevoked != 0)
      .untrustedCert,
    .problem (peer.expirationTime < peer.expirationNow) .certExpired,
    .problem (peer.activationNow < peer.activationTime) .certNotActivated]

/-- From `gnutls_x509_crt_import` on. -/
def certificateChecks : List CheckStep :=
  [.look .firstCertificate,
    .problem (peer.importRc != 0) .noCertFound,
    .problem (!peer.checkHostname server) .certHostnameMismatch,
    .look .firstCertificate,
    if 0 ≤ peer.fingerprintRc then
      .problem (expected.any fun e => fingerprintDiffers e peer) .certFingerprintMismatch
    else .problem true .genericError]

/-- All of it. -/
def verifyChecks : List CheckStep :=
  verifyPeersChecks peer ++ (statusChecks peer ++
    if peer.certType = .x509 then
      .problem (!peer.certList) .noCertFound :: certificateChecks peer server expected
    else [])

end

end LmTransport.Ref.Gnutls
