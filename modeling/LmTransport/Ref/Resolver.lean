import Mathlib.Data.List.Basic

/-!
# Reading an SRV answer

A translation of `_lm_resolver_parse_srv_response`. The buffer is addressed
relative to `srv`, and the function may look anywhere, so memory is a byte for
every offset, the negative ones and those from `srv_len` on included. The
offsets of the bytes it reads itself are in the log; the reads of `dn_expand`
are not its own.

`dn_expand` belongs to the C library and is a parameter: what it returns and
what it leaves in the name buffer.
-/

namespace LmTransport.Ref

/-- The bytes around `srv`, by their distance to it. -/
abbrev Memory := Int → UInt8

/-- `dn_expand (msg, eomorig, comp_dn, exp_dn, length)`: its result, and the
contents of `exp_dn` afterwards, which it had before as its last argument. -/
abbrev DnExpand := Memory → Int → Int → Nat → List UInt8 → Int × List UInt8

/-- The string in a `char` array: what comes before the first zero. -/
def cString (buf : List UInt8) : List UInt8 := buf.takeWhile (· ≠ 0)

theorem cString_ne_zero (buf : List UInt8) : ∀ d ∈ cString buf, d ≠ 0 := fun d hd =>
  of_decide_eq_true (List.all_eq_true.mp List.all_takeWhile d hd)

theorem cString_append_zero {text : List UInt8} (h : ∀ d ∈ text, d ≠ 0) (rest : List UInt8) :
    cString (text ++ 0 :: rest) = text := by
  have hall : ∀ d ∈ text, decide (d ≠ 0) = true := fun d hd => decide_eq_true (h d hd)
  rw [cString, List.takeWhile_append_of_pos hall, List.takeWhile_cons_of_neg (by simp),
    List.append_nil]

/-- `sizeof (HEADER)`. -/
def sizeofHeader : Int := 12

/-- `QFIXEDSZ`. -/
def qfixedsz : Int := 4

/-- The two bytes at `pos`, high byte first, as `ntohs` and `GETSHORT` take
them. -/
def getShort (mem : Memory) (pos : Int) : Nat := (mem pos).toNat * 256 + (mem (pos + 1)).toNat

/-- The local variables of the function. `prefName` is only ever read as a
string, so it is the string in the array. -/
structure SrvLocals where
  pos : Int
  name : List UInt8
  prefName : List UInt8
  prefPort : Nat
  prefPrio : Nat
  reads : List Int
deriving DecidableEq, Repr

/-- Before the loops, with both counts read from the header. `name` is not
initialised. -/
def SrvLocals.start (name : List UInt8) : SrvLocals where
  pos := sizeofHeader
  name
  prefName := []
  prefPort := 0
  prefPrio := 9999
  reads := [4, 5, 6, 7]

/-- `GETSHORT`. -/
def SrvLocals.getshort (mem : Memory) (l : SrvLocals) : Nat × SrvLocals :=
  (getShort mem l.pos, { l with pos := l.pos + 2, reads := l.reads ++ [l.pos, l.pos + 1] })

section
variable (dnExpand : DnExpand) (srv : Memory) (srvEnd : Int)

/-- "Ignore the questions". -/
def skipQuestions : Nat → SrvLocals → SrvLocals
  | 0, l => l
  | qdcount + 1, l =>
      let (len, name) := dnExpand srv srvEnd l.pos 255 l.name
      if len ≥ 0 then
        skipQuestions qdcount { l with name, pos := l.pos + len + qfixedsz }
      else
        { l with name }

/-- One turn of the answer loop, for a record whose owner name took `len`
bytes. -/
def parseAnswer (len : Int) (l : SrvLocals) : SrvLocals :=
  -- "Ignore type, ttl, class and dlen"
  let l := { l with pos := l.pos + len + 10 }
  let (pref, l) := l.getshort srv
  let (_weight, l) := l.getshort srv
  let (port, l) := l.getshort srv
  let (len, name) := dnExpand srv srvEnd l.pos 255 l.name
  let l := { l with name }
  let l :=
    if pref < l.prefPrio then
      { l with prefPrio := pref, prefName := cString name, prefPort := port }
    else l
  -- whether the target was decoded is not asked
  { l with pos := l.pos + len }

def parseAnswers : Nat → SrvLocals → SrvLocals
  | 0, l => l
  | ancount + 1, l =>
      let (len, name) := dnExpand srv srvEnd l.pos 255 l.name
      if len ≥ 0 then
        parseAnswers ancount (parseAnswer dnExpand srv srvEnd len { l with name })
      else
        { l with name }

end

/-- The variables after both loops. -/
def srvLocals (dnExpand : DnExpand) (srv : Memory) (srvLen : Int) (name : List UInt8) :
    SrvLocals :=
  let qdcount := getShort srv 4
  let ancount := getShort srv 6
  let l := skipQuestions dnExpand srv srvLen qdcount (.start name)
  parseAnswers dnExpand srv srvLen ancount l

/-- `_lm_resolver_parse_srv_response`: `none` is `FALSE`, and then the out
parameters are not written. -/
def lmResolverParseSrvResponse (dnExpand : DnExpand) (srv : Memory) (srvLen : Int)
    (name : List UInt8) : Option (List UInt8 × Nat) :=
  let l := srvLocals dnExpand srv srvLen name
  if l.prefName ≠ [] then some (l.prefName, l.prefPort) else none

end LmTransport.Ref
