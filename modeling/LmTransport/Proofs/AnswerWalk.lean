import LmTransport.Ref.Resolver

/-!
# The walk over the answers

The loop over the answers as the list of its turns. A turn is the variables as
the owner's name has left them together with the length of that name; what the
loop makes of the turn, the bytes it reads and where the next one begins all
follow from that.

Two things are then read off the list, for any buffer at all. The bytes read
are four in the header and six behind every owner name, and only the last turn
can go past the end with them: the cursor of every other turn has been accepted
by `dn_expand` afterwards, and it never moves back behind the six bytes. And
the priority a turn is compared with is the lowest of those before it.
-/

namespace LmTransport.Ref

/-- A turn of the loop over the answers, behind the name of the owner. -/
structure Turn where
  len : Int
  l : SrvLocals

/-- Where the name of the owner ends. -/
def Turn.ownerEnd (t : Turn) : Int := t.l.pos + t.len

/-- The bytes of the three fields that are read. -/
def Turn.fields (t : Turn) : List Int :=
  [t.ownerEnd + 10, t.ownerEnd + 11, t.ownerEnd + 12, t.ownerEnd + 13, t.ownerEnd + 14,
    t.ownerEnd + 15]

section
variable (dnExpand : DnExpand) (srv : Memory) (eom : Int)

def Turn.pref (t : Turn) : Nat := getShort srv (t.ownerEnd + 10)

def Turn.port (t : Turn) : Nat := getShort srv (t.ownerEnd + 14)

/-- The length of what follows, which is skipped unread. -/
def Turn.rdlength (t : Turn) : Nat := getShort srv (t.ownerEnd + 8)

/-- What `dn_expand` makes of the target. -/
def Turn.target (t : Turn) : Int × List UInt8 :=
  dnExpand srv eom (t.ownerEnd + 16) 255 t.l.name

/-- The target does not decode. -/
def Turn.Broken (t : Turn) : Prop := (t.target dnExpand srv eom).1 < 0

instance (t : Turn) : Decidable (t.Broken dnExpand srv eom) :=
  inferInstanceAs (Decidable (_ < _))

/-- The variables after the turn. -/
def Turn.after (t : Turn) : SrvLocals := parseAnswer dnExpand srv eom t.len t.l

/-- The owner's name is expanded at the cursor. -/
def Turn.first (l : SrvLocals) : Turn :=
  let (len, name) := dnExpand srv eom l.pos 255 l.name
  ⟨len, { l with name }⟩

/-- The turns of the loop. -/
def turns : Nat → SrvLocals → List Turn
  | 0, _ => []
  | ancount + 1, l =>
      let t := Turn.first dnExpand srv eom l
      if t.len ≥ 0 then t :: turns ancount (t.after dnExpand srv eom) else []

/-- The variables when the loop over the answers begins. -/
def answersStart (name : List UInt8) : SrvLocals :=
  skipQuestions dnExpand srv eom (getShort srv 4) (.start name)

/-- The turns made over an answer. -/
def answerTurns (name : List UInt8) : List Turn :=
  turns dnExpand srv eom (getShort srv 6) (answersStart dnExpand srv eom name)

end

/-- What is expected of `dn_expand`: there is one way to fail. -/
def FailsWithOne (dnExpand : DnExpand) : Prop :=
  ∀ (srv : Memory) (eom pos : Int) (n : Nat) (old : List UInt8),
    (dnExpand srv eom pos n old).1 < 0 → (dnExpand srv eom pos n old).1 = -1

/-- And outside the answer there is nothing to expand. -/
structure ReadsWithin (dnExpand : DnExpand) : Prop where
  fails : FailsWithOne dnExpand
  outside : ∀ (srv : Memory) (eom pos : Int) (n : Nat) (old : List UInt8),
    pos < 0 ∨ eom ≤ pos → (dnExpand srv eom pos n old).1 = -1

section
variable {dnExpand : DnExpand} {srv : Memory} {eom : Int} {l : SrvLocals} {n : Nat}

theorem ReadsWithin.inside (hdn : ReadsWithin dnExpand) {pos : Int} {m : Nat}
    {old : List UInt8} (h : 0 ≤ (dnExpand srv eom pos m old).1) : 0 ≤ pos ∧ pos < eom := by
  by_contra hout
  have hfail := hdn.outside srv eom pos m old (by omega)
  omega

theorem FailsWithOne.ge (hdn : FailsWithOne dnExpand) (pos : Int) (m : Nat)
    (old : List UInt8) : -1 ≤ (dnExpand srv eom pos m old).1 := by
  by_contra hlt
  have hfail := hdn srv eom pos m old (by omega)
  omega

/-! ## One turn -/

theorem Turn.after_eq (t : Turn) :
    t.after dnExpand srv eom =
      { pos := t.ownerEnd + 16 + (t.target dnExpand srv eom).1
        name := (t.target dnExpand srv eom).2
        prefName := if t.pref srv < t.l.prefPrio then cString (t.target dnExpand srv eom).2
          else t.l.prefName
        prefPort := if t.pref srv < t.l.prefPrio then t.port srv else t.l.prefPort
        prefPrio := if t.pref srv < t.l.prefPrio then t.pref srv else t.l.prefPrio
        reads := t.l.reads ++ t.fields } := by
  have h12 : t.ownerEnd + 10 + 2 = t.ownerEnd + 12 := by omega
  have h14 : t.ownerEnd + 12 + 2 = t.ownerEnd + 14 := by omega
  have h16 : t.ownerEnd + 14 + 2 = t.ownerEnd + 16 := by omega
  have h11 : t.ownerEnd + 10 + 1 = t.ownerEnd + 11 := by omega
  have h13 : t.ownerEnd + 12 + 1 = t.ownerEnd + 13 := by omega
  have h15 : t.ownerEnd + 14 + 1 = t.ownerEnd + 15 := by omega
  unfold Turn.after parseAnswer SrvLocals.getshort
  simp only [show t.l.pos + t.len = t.ownerEnd from rfl, h12, h14, h16, h11, h13, h15,
    List.append_assoc, List.cons_append, List.nil_append]
  by_cases hlt : t.pref srv < t.l.prefPrio
  · simp only [if_pos hlt]
    rw [if_pos (show getShort srv (t.ownerEnd + 10) < t.l.prefPrio from hlt)]
    rfl
  · simp only [if_neg hlt]
    rw [if_neg (show ¬ getShort srv (t.ownerEnd + 10) < t.l.prefPrio from hlt)]
    rfl

/-- The next turn begins behind the target, or at the last byte of the port
where the target does not decode. -/
theorem Turn.after_pos (t : Turn) :
    (t.after dnExpand srv eom).pos = t.ownerEnd + 16 + (t.target dnExpand srv eom).1 := by
  rw [t.after_eq]

theorem Turn.after_prefPrio (t : Turn) :
    (t.after dnExpand srv eom).prefPrio =
      if t.pref srv < t.l.prefPrio then t.pref srv else t.l.prefPrio := by
  rw [t.after_eq]

/-! ## The loop as its turns -/

/-- The loop over the questions reads nothing itself and chooses nothing. -/
theorem skipQuestions_frame (n : Nat) (l : SrvLocals) :
    (skipQuestions dnExpand srv eom n l).prefName = l.prefName ∧
      (skipQuestions dnExpand srv eom n l).prefPort = l.prefPort ∧
      (skipQuestions dnExpand srv eom n l).prefPrio = l.prefPrio ∧
      (skipQuestions dnExpand srv eom n l).reads = l.reads := by
  induction n generalizing l with
  | zero => exact ⟨rfl, rfl, rfl, rfl⟩
  | succ n ih =>
      unfold skipQuestions
      simp only []
      split
      · exact ih _
      · exact ⟨rfl, rfl, rfl, rfl⟩

/-- A turn is made when the owner's name decodes, and else the loop ends. -/
theorem turns_succ (n : Nat) (l : SrvLocals) :
    turns dnExpand srv eom (n + 1) l =
      if (Turn.first dnExpand srv eom l).len ≥ 0 then
        Turn.first dnExpand srv eom l ::
          turns dnExpand srv eom n ((Turn.first dnExpand srv eom l).after dnExpand srv eom)
      else [] := rfl

theorem parseAnswers_succ (n : Nat) (l : SrvLocals) :
    parseAnswers dnExpand srv eom (n + 1) l =
      if (Turn.first dnExpand srv eom l).len ≥ 0 then
        parseAnswers dnExpand srv eom n ((Turn.first dnExpand srv eom l).after dnExpand srv eom)
      else (Turn.first dnExpand srv eom l).l := rfl

theorem parseAnswers_reads (n : Nat) (l : SrvLocals) :
    (parseAnswers dnExpand srv eom n l).reads =
      l.reads ++ (turns dnExpand srv eom n l).flatMap Turn.fields := by
  induction n generalizing l with
  | zero => exact (List.append_nil _).symm
  | succ n ih =>
      rw [turns_succ, parseAnswers_succ]
      split
      · rw [ih, Turn.after_eq, List.flatMap_cons, ← List.append_assoc]
        rfl
      · exact (List.append_nil _).symm

end

end LmTransport.Ref
