import LmTransport.Proofs.BrokenTargets

/-!
# The parser in two frames

The same answer is parsed twice, in memory that need not be the same around it
and with a name buffer that held something else before. A record whose target
decodes lies inside the answer as a whole, so it looks the same both times. Of a
record whose target does not decode, the fields may have been read behind the
end, and the text it leaves is whatever `dn_expand` did to the buffer. All that
is forgotten if another record is chosen in the end.

The induction over the turns carries two frames at the same place whose choices
are equal or about to be given up. For the converse one of the `dn_expand`s that
may be there shows what was in the buffer.
-/

namespace LmTransport.Ref

open Dns

/-- Two memories in which the answer of `len` bytes is the same. -/
def SameBytes (len : Int) (srv srv' : Memory) : Prop :=
  ∀ i, 0 ≤ i → i < len → srv i = srv' i

/-- The answer with zeros around it. -/
def zeroOutside (len : Int) (srv : Memory) : Memory :=
  fun i => if 0 ≤ i ∧ i < len then srv i else 0

/-- Two `dn_expand`s that decode the same names from the same answer. What a
call that fails leaves in the buffer is not specified, and neither is what
comes behind the text of one that succeeds. -/
structure Alike (dnExpand dnExpand' : DnExpand) : Prop where
  result : ∀ {srv srv' : Memory} {eom pos : Int} (n : Nat) (old old' : List UInt8),
    SameBytes eom srv srv' →
      (dnExpand srv eom pos n old).1 = (dnExpand' srv' eom pos n old').1
  text : ∀ {srv srv' : Memory} {eom pos : Int} (n : Nat) (old old' : List UInt8),
    SameBytes eom srv srv' → 0 ≤ (dnExpand srv eom pos n old).1 →
      cString (dnExpand srv eom pos n old).2 = cString (dnExpand' srv' eom pos n old').2

/-- What is expected of `dn_expand`: what it returns and the name it decodes
depend on the answer alone, it fails at the end pointer and behind it, and
there is one way to fail. -/
structure ReadsAnswer (dnExpand : DnExpand) : Prop where
  alike : Alike dnExpand dnExpand
  atEnd : ∀ (srv : Memory) (eom pos : Int) (n : Nat) (old : List UInt8),
    eom ≤ pos → (dnExpand srv eom pos n old).1 = -1
  fails : FailsWithOne dnExpand

/-- The record that is chosen has a target that decodes: one that is broken is
not below 9999, or not below a record before it, or above a record behind it. -/
def BestDecoded (dnExpand : DnExpand) (srv : Memory) (eom : Int) (ts : List Turn) : Prop :=
  ∀ (seen rest : List Turn) (t : Turn), ts = seen ++ t :: rest → t.Broken dnExpand srv eom →
    9999 ≤ t.pref srv ∨ (∃ u ∈ seen, u.pref srv ≤ t.pref srv) ∨
      ∃ u ∈ rest, u.pref srv < t.pref srv

/-! ## Two frames of the parser -/

/-- Two frames that are at the same place of the answer, with the same priority
to beat. -/
structure SamePlace (l l' : SrvLocals) : Prop where
  pos : l.pos = l'.pos
  nonneg : 0 ≤ l.pos
  prefPrio : l.prefPrio = l'.prefPrio

/-- They have chosen the same server. -/
def SameChoice (l l' : SrvLocals) : Prop := l.prefName = l'.prefName ∧ l.prefPort = l'.prefPort

theorem SameChoice.symm {l l' : SrvLocals} (h : SameChoice l l') : SameChoice l' l :=
  ⟨h.1.symm, h.2.symm⟩

theorem SameChoice.trans {l l' l'' : SrvLocals} (h : SameChoice l l') (h' : SameChoice l' l'') :
    SameChoice l l'' := ⟨h.1.trans h'.1, h.2.trans h'.2⟩

section
variable {dnExpand dnExpand' : DnExpand} {srv srv' : Memory} {len : Int} {l l' : SrvLocals}

theorem SameBytes.refl (len : Int) (srv : Memory) : SameBytes len srv srv := fun _ _ _ => rfl

/-- What is like one that reads the answer reads the answer. -/
theorem ReadsAnswer.of_alike (hdn : ReadsAnswer dnExpand) (halike : Alike dnExpand dnExpand') :
    ReadsAnswer dnExpand' := by
  have hres : ∀ (srv : Memory) (eom pos : Int) (n : Nat) (old : List UInt8),
      (dnExpand' srv eom pos n old).1 = (dnExpand srv eom pos n old).1 :=
    fun srv eom pos n old => (halike.result n old old (.refl eom srv)).symm
  refine ⟨⟨fun n old old' hbytes => ?_, fun n old old' hbytes hdecoded => ?_⟩, ?_, ?_⟩
  · rw [hres]
    exact halike.result n old old' hbytes
  · rw [hres] at hdecoded
    rw [← halike.text n old old (.refl _ _) hdecoded]
    exact halike.text n old old' hbytes hdecoded
  · intro srv eom pos n old hend
    rw [hres]
    exact hdn.atEnd srv eom pos n old hend
  · intro srv eom pos n old hfail
    rw [hres] at hfail ⊢
    exact hdn.fails srv eom pos n old hfail

theorem getShort_same (hbytes : SameBytes len srv srv') {pos : Int} (hpos : 0 ≤ pos)
    (hend : pos + 2 ≤ len) : getShort srv pos = getShort srv' pos := by
  unfold getShort
  rw [hbytes pos hpos (by omega), hbytes (pos + 1) (by omega) (by omega)]

theorem zeroOutside_same (len : Int) (srv : Memory) : SameBytes len (zeroOutside len srv) srv :=
  fun _ hnonneg hlt => if_pos ⟨hnonneg, hlt⟩

/-- A number that is cut off by the end is no larger if zeros follow. -/
theorem getShort_zeroOutside_le (hbytes : SameBytes len srv srv') (pos : Int) :
    getShort (zeroOutside len srv) pos ≤ getShort srv' pos := by
  have hle : ∀ i, (zeroOutside len srv i).toNat ≤ (srv' i).toNat := by
    intro i
    unfold zeroOutside
    split
    · next hi => rw [hbytes i hi.1 hi.2]
    · exact Nat.zero_le _
  exact Nat.add_le_add (Nat.mul_le_mul_right _ (hle pos)) (hle (pos + 1))

/-! ## The questions -/

theorem skipQuestions_same (halike : Alike dnExpand dnExpand') (hbytes : SameBytes len srv srv')
    (n : Nat) (h : SamePlace l l') :
    SamePlace (skipQuestions dnExpand srv len n l) (skipQuestions dnExpand' srv' len n l') := by
  induction n generalizing l l' with
  | zero => exact h
  | succ n ih =>
      have hres := @Alike.result _ _ halike _ _ _ l.pos 255 l.name l'.name hbytes
      unfold skipQuestions
      simp only [← h.pos, ← hres]
      split
      · next hlen =>
          have hnonneg : 0 ≤ l.pos + (dnExpand srv len l.pos 255 l.name).1 + qfixedsz :=
            Int.add_nonneg (Int.add_nonneg h.nonneg hlen) (by decide)
          exact ih ⟨rfl, hnonneg, h.prefPrio⟩
      · exact ⟨rfl, h.nonneg, h.prefPrio⟩

/-! ## One turn -/

/-- Two turns over the same record. -/
structure SameTurn (t t' : Turn) : Prop where
  ownerEnd : t.ownerEnd = t'.ownerEnd
  nonneg : 0 ≤ t.ownerEnd
  prefPrio : t.l.prefPrio = t'.l.prefPrio

variable {t t' : Turn}

theorem first_len_same (halike : Alike dnExpand dnExpand') (hbytes : SameBytes len srv srv')
    (h : SamePlace l l') :
    (Turn.first dnExpand srv len l).len = (Turn.first dnExpand' srv' len l').len := by
  show (dnExpand srv len l.pos 255 l.name).1 = _
  rw [h.pos]
  exact halike.result 255 l.name l'.name hbytes

theorem first_same (halike : Alike dnExpand dnExpand') (hbytes : SameBytes len srv srv')
    (h : SamePlace l l') (hlen : 0 ≤ (Turn.first dnExpand srv len l).len) :
    SameTurn (Turn.first dnExpand srv len l) (Turn.first dnExpand' srv' len l') where
  ownerEnd := by
    show l.pos + (Turn.first dnExpand srv len l).len = l'.pos + _
    rw [first_len_same halike hbytes h, h.pos]
  nonneg := Int.add_nonneg h.nonneg hlen
  prefPrio := h.prefPrio

namespace SameTurn

theorem target (halike : Alike dnExpand dnExpand') (hbytes : SameBytes len srv srv')
    (h : SameTurn t t') :
    (t.target dnExpand srv len).1 = (t'.target dnExpand' srv' len).1 := by
  unfold Turn.target
  rw [← h.ownerEnd]
  exact halike.result 255 t.l.name t'.l.name hbytes

theorem text (halike : Alike dnExpand dnExpand') (hbytes : SameBytes len srv srv')
    (h : SameTurn t t') (hdecoded : ¬ t.Broken dnExpand srv len) :
    cString (t.target dnExpand srv len).2 = cString (t'.target dnExpand' srv' len).2 := by
  have hres : 0 ≤ (t.target dnExpand srv len).1 := Int.not_lt.mp hdecoded
  unfold Turn.target at hres ⊢
  rw [← h.ownerEnd]
  exact halike.text 255 t.l.name t'.l.name hbytes hres

theorem pref (hbytes : SameBytes len srv srv') (h : SameTurn t t')
    (hinside : t.ownerEnd + 16 ≤ len) : t.pref srv = t'.pref srv' := by
  have hnonneg := h.nonneg
  unfold Turn.pref
  rw [← h.ownerEnd]
  exact getShort_same hbytes (by omega) (by omega)

theorem port (hbytes : SameBytes len srv srv') (h : SameTurn t t')
    (hinside : t.ownerEnd + 16 ≤ len) : t.port srv = t'.port srv' := by
  have hnonneg := h.nonneg
  unfold Turn.port
  rw [← h.ownerEnd]
  exact getShort_same hbytes (by omega) (by omega)

/-- If the records have the same priority, the turns end at the same place. -/
theorem after (hdn : ReadsAnswer dnExpand) (halike : Alike dnExpand dnExpand')
    (hbytes : SameBytes len srv srv') (h : SameTurn t t') (hpref : t.pref srv = t'.pref srv') :
    SamePlace (t.after dnExpand srv len) (t'.after dnExpand' srv' len) where
  pos := by rw [t.after_pos, t'.after_pos, h.ownerEnd, h.target halike hbytes]
  nonneg := by
    have hnonneg := h.nonneg
    have hback := @FailsWithOne.ge _ srv len hdn.fails (t.ownerEnd + 16) 255 t.l.name
    rw [t.after_pos]
    simp only [Turn.target]
    omega
  prefPrio := by rw [t.after_prefPrio, t'.after_prefPrio, hpref, h.prefPrio]

end SameTurn

/-- With the cursor at the end neither loop makes a turn. -/
theorem skipQuestions_atEnd (hdn : ReadsAnswer dnExpand) (n : Nat) (hend : len ≤ l.pos) :
    (skipQuestions dnExpand srv len n l).pos = l.pos := by
  cases n with
  | zero => rfl
  | succ n =>
      have hfail := hdn.atEnd srv len l.pos 255 l.name hend
      unfold skipQuestions
      simp only [hfail]
      rfl

theorem turns_atEnd (hdn : ReadsAnswer dnExpand) (n : Nat) (hend : len ≤ l.pos) :
    turns dnExpand srv len n l = [] := by
  cases n with
  | zero => rfl
  | succ n =>
      have hfail : (Turn.first dnExpand srv len l).len = -1 :=
        hdn.atEnd srv len l.pos 255 l.name hend
      rw [turns_succ, hfail]
      rfl

/-- Without a turn the choice stays. -/
theorem parseAnswers_of_turns_nil {n : Nat} (h : turns dnExpand srv len n l = []) :
    SameChoice (parseAnswers dnExpand srv len n l) l := by
  cases n with
  | zero => exact ⟨rfl, rfl⟩
  | succ n =>
      rw [turns_succ] at h
      rw [parseAnswers_succ]
      split
      · next hlen =>
          rw [if_pos hlen] at h
          cases h
      · exact ⟨rfl, rfl⟩

end

/-! ## The whole walk -/

/-- As `BestDecoded`, for the turns from somewhere in the walk on: what a turn
has to beat is in its variables. -/
def BestDecodedFrom (dnExpand : DnExpand) (srv : Memory) (eom : Int) (ts : List Turn) : Prop :=
  ∀ (seen rest : List Turn) (t : Turn), ts = seen ++ t :: rest → t.Broken dnExpand srv eom →
    t.l.prefPrio ≤ t.pref srv ∨ ∃ u ∈ rest, u.pref srv < t.pref srv

section
variable {dnExpand dnExpand' : DnExpand} {srv srv' : Memory} {len : Int} {l l' : SrvLocals}
  {t t' : Turn} {ts : List Turn}

theorem bestDecodedFrom_cons : BestDecodedFrom dnExpand srv len (t :: ts) ↔
    (t.Broken dnExpand srv len → t.l.prefPrio ≤ t.pref srv ∨ ∃ u ∈ ts, u.pref srv < t.pref srv) ∧
      BestDecodedFrom dnExpand srv len ts := by
  constructor
  · exact fun h => ⟨h [] ts t rfl, fun seen rest u hts => h (t :: seen) rest u (by rw [hts]; rfl)⟩
  · intro ⟨hhead, htail⟩ seen rest u hts
    cases seen with
    | nil =>
        obtain ⟨rfl, rfl⟩ := List.cons.inj hts
        exact hhead
    | cons v seen => exact htail seen rest u (List.cons.inj hts).2

/-- A turn that is not below what is chosen changes nothing about it. -/
theorem Turn.after_keeps (hle : t.l.prefPrio ≤ t.pref srv) :
    SameChoice (t.after dnExpand srv len) t.l := by
  have hchoice := @Turn.after_choice_eq_iff dnExpand srv len t |>.mpr hle
  exact ⟨congrArg Prod.fst hchoice, congrArg (fun c => c.2.1) hchoice⟩

/-- After a turn inside the answer the choices are the same again, or are going
to be given up: a decoded target is the same text in both frames, and a broken
one that wins is beaten later. -/
theorem SameTurn.choice (halike : Alike dnExpand dnExpand') (hbytes : SameBytes len srv srv')
    (hturn : SameTurn t t') (hinside : t.ownerEnd + 16 ≤ len)
    (hbest : t.Broken dnExpand srv len →
      t.l.prefPrio ≤ t.pref srv ∨ ∃ u ∈ ts, u.pref srv < t.pref srv)
    (hchoice : SameChoice t.l t'.l ∨ ∃ u ∈ t :: ts, u.pref srv < t.l.prefPrio) :
    SameChoice (t.after dnExpand srv len) (t'.after dnExpand' srv' len) ∨
      ∃ u ∈ ts, u.pref srv < (t.after dnExpand srv len).prefPrio := by
  have hpref := hturn.pref hbytes hinside
  have hport := hturn.port hbytes hinside
  by_cases hlt : t.pref srv < t.l.prefPrio
  · have hlt' : t'.pref srv' < t'.l.prefPrio := by rw [← hpref, ← hturn.prefPrio]; exact hlt
    rw [t.after_eq, t'.after_eq]
    simp only [SameChoice, if_pos hlt, if_pos hlt']
    by_cases hbad : t.Broken dnExpand srv len
    · right
      rcases hbest hbad with hle | hlater
      · omega
      · exact hlater
    · exact Or.inl ⟨hturn.text halike hbytes hbad, hport⟩
  · have hle : t.l.prefPrio ≤ t.pref srv := Nat.not_lt.mp hlt
    have hle' : t'.l.prefPrio ≤ t'.pref srv' := by rw [← hpref, ← hturn.prefPrio]; exact hle
    rcases hchoice with hsame | ⟨u, hu, hbeats⟩
    · exact Or.inl ((Turn.after_keeps hle).trans (hsame.trans (Turn.after_keeps hle').symm))
    · right
      rw [t.after_prefPrio, if_neg hlt]
      rcases List.mem_cons.mp hu with rfl | hlater
      · exact absurd hbeats hlt
      · exact ⟨u, hlater, hbeats⟩

/-- A record that is cut off is the last: its target begins at the end or
behind it, and so does what is taken for the next record. -/
theorem turns_after_cutOff (hdn : ReadsAnswer dnExpand) (n : Nat)
    (hcut : len < t.ownerEnd + 16) :
    t.Broken dnExpand srv len ∧ turns dnExpand srv len n (t.after dnExpand srv len) = [] := by
  have hfail : (t.target dnExpand srv len).1 = -1 :=
    hdn.atEnd srv len (t.ownerEnd + 16) 255 t.l.name (by omega)
  refine ⟨?_, turns_atEnd hdn n ?_⟩
  · unfold Turn.Broken
    omega
  · rw [t.after_pos, hfail]
    omega

/-- A record that is cut off wins in neither frame: it does not win with zeros
behind the end, and other bytes can only make its priority larger. -/
theorem SameTurn.choice_cutOff (hdn : ReadsAnswer dnExpand) (halike : Alike dnExpand dnExpand')
    (hlow : ∀ pos, getShort srv pos ≤ getShort srv' pos) (n : Nat) (hturn : SameTurn t t')
    (hcut : len < t.ownerEnd + 16)
    (hbest : BestDecodedFrom dnExpand srv len
      (t :: turns dnExpand srv len n (t.after dnExpand srv len)))
    (hchoice : SameChoice t.l t'.l ∨
      ∃ u ∈ t :: turns dnExpand srv len n (t.after dnExpand srv len), u.pref srv < t.l.prefPrio) :
    SameChoice (parseAnswers dnExpand srv len n (t.after dnExpand srv len))
      (parseAnswers dnExpand' srv' len n (t'.after dnExpand' srv' len)) := by
  obtain ⟨hbad, hlast⟩ := turns_after_cutOff hdn n hcut
  obtain ⟨-, hlast'⟩ := @turns_after_cutOff _ srv' len t' (hdn.of_alike halike) n
    (hturn.ownerEnd ▸ hcut)
  have hend := parseAnswers_of_turns_nil hlast
  have hend' := parseAnswers_of_turns_nil hlast'
  rw [hlast] at hbest hchoice
  have hle : t.l.prefPrio ≤ t.pref srv := by
    rcases (bestDecodedFrom_cons.mp hbest).1 hbad with hle | ⟨u, hu, -⟩
    · exact hle
    · exact absurd hu (by simp)
  have hle' : t'.l.prefPrio ≤ t'.pref srv' := by
    rw [← hturn.prefPrio]
    unfold Turn.pref at hle ⊢
    rw [← hturn.ownerEnd]
    exact hle.trans (hlow _)
  have hsame : SameChoice t.l t'.l := by
    rcases hchoice with hsame | ⟨u, hu, hbeats⟩
    · exact hsame
    · obtain rfl := List.mem_singleton.mp hu
      omega
  exact (hend.trans (Turn.after_keeps hle)).trans
    (hsame.trans ((hend'.trans (Turn.after_keeps hle')).symm))

/-- Two runs that have chosen the same server, or will give up what they have
chosen for a later record, end with the same server. -/
theorem parseAnswers_same (hdn : ReadsAnswer dnExpand) (halike : Alike dnExpand dnExpand')
    (hbytes : SameBytes len srv srv')
    (hlow : ∀ pos, getShort srv pos ≤ getShort srv' pos) (n : Nat) (h : SamePlace l l')
    (hbest : BestDecodedFrom dnExpand srv len (turns dnExpand srv len n l))
    (hchoice : SameChoice l l' ∨
      ∃ u ∈ turns dnExpand srv len n l, u.pref srv < l.prefPrio) :
    SameChoice (parseAnswers dnExpand srv len n l) (parseAnswers dnExpand' srv' len n l') := by
  induction n generalizing l l' with
  | zero =>
      rcases hchoice with hsame | ⟨u, hu, -⟩
      · exact hsame
      · exact absurd hu (by simp [turns])
  | succ n ih =>
      rw [turns_succ] at hbest hchoice
      rw [parseAnswers_succ, parseAnswers_succ, ← first_len_same halike hbytes h]
      split
      · next hlen =>
          rw [if_pos hlen] at hbest hchoice
          have hturn := first_same halike hbytes h hlen
          have hbegin : SameChoice l l' ↔
              SameChoice (Turn.first dnExpand srv len l).l (Turn.first dnExpand' srv' len l').l :=
            Iff.rfl
          have hprio : l.prefPrio = (Turn.first dnExpand srv len l).l.prefPrio := rfl
          rw [hbegin, hprio] at hchoice
          generalize Turn.first dnExpand srv len l = t at *
          generalize Turn.first dnExpand' srv' len l' = t' at *
          by_cases hinside : t.ownerEnd + 16 ≤ len
          · obtain ⟨hhead, hlater⟩ := bestDecodedFrom_cons.mp hbest
            exact ih (hturn.after hdn halike hbytes (hturn.pref hbytes hinside)) hlater
              (hturn.choice halike hbytes hinside hhead hchoice)
          · exact hturn.choice_cutOff hdn halike hlow n (Int.not_le.mp hinside) hbest hchoice
      · next hlen =>
          rw [if_neg hlen] at hchoice
          rcases hchoice with hsame | ⟨u, hu, -⟩
          · exact hsame
          · exact absurd hu (by simp)

/-! ## What a broken target leaves

Nothing is known about the buffer after a call that has failed. One `dn_expand`
that may be there keeps the last byte of the buffer where it is, and shows it
when a name does not decode. -/

def marked (dnExpand : DnExpand) : DnExpand := fun srv eom pos n old =>
  let (len, buf) := dnExpand srv eom pos n old
  if 0 ≤ len then (len, cString buf ++ [0] ++ [old.getLastD 0]) else (len, [old.getLastD 0])

theorem marked_result (srv : Memory) (eom pos : Int) (n : Nat) (old : List UInt8) :
    (marked dnExpand srv eom pos n old).1 = (dnExpand srv eom pos n old).1 := by
  unfold marked
  simp only []
  split <;> rfl

theorem marked_alike (hdn : ReadsAnswer dnExpand) : Alike dnExpand (marked dnExpand) where
  result := by
    intro srv srv' eom pos n old old' hbytes
    rw [marked_result]
    exact hdn.alike.result n old old' hbytes
  text := by
    intro srv srv' eom pos n old old' hbytes hdecoded
    have htext := hdn.alike.text n old old' hbytes hdecoded
    rw [hdn.alike.result n old old' hbytes] at hdecoded
    rw [htext, marked]
    simp only [if_pos hdecoded]
    rw [List.append_assoc]
    exact (cString_append_zero (cString_ne_zero _) _).symm

theorem marked_mark (srv : Memory) (eom pos : Int) (n : Nat) (old : List UInt8) :
    (marked dnExpand srv eom pos n old).2.getLastD 0 = old.getLastD 0 := by
  unfold marked
  simp only []
  split
  · exact List.getLastD_concat
  · rfl

theorem marked_broken {srv : Memory} {eom pos : Int} {n : Nat} {old : List UInt8}
    (hfail : (marked dnExpand srv eom pos n old).1 < 0) :
    (marked dnExpand srv eom pos n old).2 = [old.getLastD 0] := by
  rw [marked_result] at hfail
  unfold marked
  simp only [if_neg (Int.not_le.mpr hfail)]

theorem skipQuestions_marked (n : Nat) (l : SrvLocals) :
    (skipQuestions (marked dnExpand) srv len n l).name.getLastD 0 = l.name.getLastD 0 := by
  induction n generalizing l with
  | zero => rfl
  | succ n ih =>
      have hmark := @marked_mark dnExpand srv len l.pos 255 l.name
      unfold skipQuestions
      simp only []
      split
      · exact (ih _).trans hmark
      · exact hmark

/-- The mark is shown after a broken target that wins. -/
theorem SameTurn.shown (hdn : ReadsAnswer dnExpand) (hturn : SameTurn t t')
    (hpref : t.pref srv = t'.pref srv) {b : UInt8} (hmark : t'.l.name.getLastD 0 = b)
    (hbad : ¬ BestDecodedFrom dnExpand srv len (t :: ts) ∨
      t'.l.prefName = cString [b] ∧ ∀ u ∈ t :: ts, t.l.prefPrio ≤ u.pref srv) :
    ¬ BestDecodedFrom dnExpand srv len ts ∨
      (t'.after (marked dnExpand) srv len).prefName = cString [b] ∧
        ∀ u ∈ ts, (t.after dnExpand srv len).prefPrio ≤ u.pref srv := by
  rw [bestDecodedFrom_cons, not_and_or] at hbad
  rcases hbad with (hwins | hlater) | ⟨hshown, hleast⟩
  · right
    push Not at hwins
    obtain ⟨hbroken, hlt, hleast⟩ := hwins
    have hlt' : t'.pref srv < t'.l.prefPrio := by
      rw [← hpref, ← hturn.prefPrio]
      exact hlt
    have hfail : (t'.target (marked dnExpand) srv len).1 < 0 := by
      rw [← hturn.target (marked_alike hdn) (.refl len srv)]
      exact hbroken
    rw [t'.after_eq, t.after_prefPrio, if_pos hlt]
    simp only [if_pos hlt']
    refine ⟨?_, hleast⟩
    unfold Turn.target at hfail ⊢
    rw [marked_broken hfail, hmark]
  · exact Or.inl hlater
  · right
    obtain ⟨hnot, hrest⟩ := List.forall_mem_cons.mp hleast
    have hnot' : t'.l.prefPrio ≤ t'.pref srv := by
      rw [← hpref, ← hturn.prefPrio]
      exact hnot
    rw [t.after_prefPrio, if_neg (Nat.not_lt.mpr hnot), (Turn.after_keeps hnot').1]
    exact ⟨hshown, hrest⟩

/-- A broken target that wins and is not beaten later shows the mark in the end. -/
theorem parseAnswers_marked (hdn : ReadsAnswer dnExpand) {b : UInt8} (n : Nat)
    (h : SamePlace l l') (hmark : l'.name.getLastD 0 = b)
    (hbad : ¬ BestDecodedFrom dnExpand srv len (turns dnExpand srv len n l) ∨
      l'.prefName = cString [b] ∧ ∀ u ∈ turns dnExpand srv len n l, l.prefPrio ≤ u.pref srv) :
    (parseAnswers (marked dnExpand) srv len n l').prefName = cString [b] := by
  have halike := marked_alike hdn
  have hbytes := SameBytes.refl len srv
  have hnone : BestDecodedFrom dnExpand srv len [] := fun _ _ _ h => absurd h (by simp)
  induction n generalizing l l' with
  | zero =>
      rcases hbad with hnot | ⟨hshown, -⟩
      · exact absurd hnone hnot
      · exact hshown
  | succ n ih =>
      rw [turns_succ] at hbad
      rw [parseAnswers_succ, ← first_len_same halike hbytes h]
      split
      · next hlen =>
          rw [if_pos hlen] at hbad
          have hturn := first_same halike hbytes h hlen
          have hkept : (Turn.first (marked dnExpand) srv len l').l.name.getLastD 0 = b :=
            (marked_mark srv len l'.pos 255 l'.name).trans hmark
          have hshown : l'.prefName = (Turn.first (marked dnExpand) srv len l').l.prefName := rfl
          have hprio : l.prefPrio = (Turn.first dnExpand srv len l).l.prefPrio := rfl
          rw [hshown, hprio] at hbad
          generalize Turn.first dnExpand srv len l = t at *
          generalize Turn.first (marked dnExpand) srv len l' = t' at *
          have hpref : t.pref srv = t'.pref srv := by
            unfold Turn.pref
            rw [hturn.ownerEnd]
          have hnext : (t'.after (marked dnExpand) srv len).name.getLastD 0 = b := by
            rw [t'.after_eq]
            exact (marked_mark srv len (t'.ownerEnd + 16) 255 t'.l.name).trans hkept
          refine ih (hturn.after hdn halike hbytes hpref) hnext ?_
          exact hturn.shown hdn hpref hkept hbad
      · next hlen =>
          rw [if_neg hlen] at hbad
          rcases hbad with hnot | ⟨hshown, -⟩
          · exact absurd hnone hnot
          · exact hshown

end

/-! ## The answer as a whole -/

section
variable {dnExpand dnExpand' : DnExpand} {answer srv : Memory} {len : Int}

theorem bestDecoded_iff (name : List UInt8) :
    BestDecoded dnExpand srv len (answerTurns dnExpand srv len name) ↔
      BestDecodedFrom dnExpand srv len (answerTurns dnExpand srv len name) := by
  constructor
  · intro h seen rest t hts hbad
    rw [answerTurns_prio_le_iff hts, or_assoc]
    exact h seen rest t hts hbad
  · intro h seen rest t hts hbad
    rw [← or_assoc, ← answerTurns_prio_le_iff hts]
    exact h seen rest t hts hbad

/-- Where the loops over the answers begin, in any two frames. -/
theorem answersStart_same (halike : Alike dnExpand dnExpand') (hbytes : SameBytes len answer srv)
    (hlen : sizeofHeader < len) (name name' : List UInt8) :
    SamePlace (answersStart dnExpand answer len name) (answersStart dnExpand' srv len name') := by
  have hcount : getShort answer 4 = getShort srv 4 :=
    getShort_same hbytes (by decide) (by simp only [sizeofHeader] at hlen; omega)
  have hheader : 0 ≤ sizeofHeader := by decide
  unfold answersStart
  rw [← hcount]
  exact skipQuestions_same halike hbytes _ ⟨rfl, hheader, rfl⟩

theorem answersStart_prefName (name : List UInt8) :
    (answersStart dnExpand srv len name).prefName = [] :=
  congrArg Prod.fst (answersStart_choice dnExpand srv len name)

/-- If the record that is chosen is decoded, every frame finds the same server. -/
theorem parse_same (hdn : ReadsAnswer dnExpand) (halike : Alike dnExpand dnExpand')
    (hbytes : SameBytes len answer srv) (hlen : sizeofHeader < len)
    (hbest : BestDecoded dnExpand (zeroOutside len answer) len
      (answerTurns dnExpand (zeroOutside len answer) len [])) (name : List UInt8) :
    lmResolverParseSrvResponse dnExpand' srv len name =
      lmResolverParseSrvResponse dnExpand (zeroOutside len answer) len [] := by
  have hzero : SameBytes len (zeroOutside len answer) srv := fun i hi hlt =>
    (zeroOutside_same len answer i hi hlt).trans (hbytes i hi hlt)
  have hcount : getShort (zeroOutside len answer) 6 = getShort srv 6 :=
    getShort_same hzero (by decide) (by simp only [sizeofHeader] at hlen; omega)
  have hstart : SameChoice (answersStart dnExpand (zeroOutside len answer) len [])
      (answersStart dnExpand' srv len name) := by
    have hchoice := answersStart_choice dnExpand (zeroOutside len answer) len []
    have hchoice' := answersStart_choice dnExpand' srv len name
    simp only [SrvLocals.choice, Prod.mk.injEq] at hchoice hchoice'
    exact ⟨hchoice.1.trans hchoice'.1.symm, hchoice.2.1.trans hchoice'.2.1.symm⟩
  obtain ⟨hname, hport⟩ := parseAnswers_same hdn halike hzero (getShort_zeroOutside_le hbytes)
    (getShort (zeroOutside len answer) 6) (answersStart_same halike hzero hlen [] name)
    ((bestDecoded_iff []).mp hbest) (Or.inl hstart)
  have hlocals : srvLocals dnExpand' srv len name =
      parseAnswers dnExpand' srv len (getShort (zeroOutside len answer) 6)
        (answersStart dnExpand' srv len name) := by rw [hcount]; rfl
  simp only [lmResolverParseSrvResponse]
  rw [hlocals, ← hname, ← hport]
  rfl

/-- If it is not, what is found depends on the buffer. -/
theorem parse_marked (hdn : ReadsAnswer dnExpand) (hlen : sizeofHeader < len)
    (hbad : ¬ BestDecoded dnExpand srv len (answerTurns dnExpand srv len [])) :
    lmResolverParseSrvResponse (marked dnExpand) srv len [0] = none ∧
      ∃ port, lmResolverParseSrvResponse (marked dnExpand) srv len [1] = some ([1], port) := by
  rw [bestDecoded_iff] at hbad
  have hshown : ∀ b : UInt8, (srvLocals (marked dnExpand) srv len [b]).prefName = cString [b] :=
    fun b => parseAnswers_marked hdn (getShort srv 6)
      (answersStart_same (marked_alike hdn) (.refl len srv) hlen [] [b])
      (skipQuestions_marked (getShort srv 4) (.start [b])) (Or.inl hbad)
  simp only [lmResolverParseSrvResponse]
  rw [hshown, hshown]
  exact ⟨rfl, _, rfl⟩

/-- There is nothing to find behind the end of the answer. -/
theorem answerTurns_short (hdn : ReadsAnswer dnExpand) (hshort : len ≤ sizeofHeader)
    (name : List UInt8) : answerTurns dnExpand srv len name = [] := by
  refine turns_atEnd hdn _ ?_
  rw [answersStart, skipQuestions_atEnd hdn _ hshort]
  exact hshort

theorem parse_short (hdn : ReadsAnswer dnExpand) (hshort : len ≤ sizeofHeader)
    (name : List UInt8) : lmResolverParseSrvResponse dnExpand srv len name = none := by
  have hlocals : (srvLocals dnExpand srv len name).prefName = [] :=
    (parseAnswers_of_turns_nil (answerTurns_short hdn hshort name)).1.trans
      (answersStart_prefName name)
  simp only [lmResolverParseSrvResponse]
  rw [hlocals]
  rfl

end

/-! ## The decoder of names -/

theorem contents_same {srv srv' : Memory} {len : Int} (hbytes : SameBytes len srv srv') :
    contents srv len = contents srv' len := by
  refine List.map_congr_left fun i hi => ?_
  have hlt := List.mem_range.mp hi
  exact hbytes i (by omega) (by omega)

/-- The decoder of names is such a `dn_expand`. -/
theorem dnExpandOf_readsAnswer : ReadsAnswer dnExpandOf where
  alike :=
    { result := by
        intro srv srv' eom pos n old old' hbytes
        unfold dnExpandOf
        rw [contents_same hbytes]
        split
        · rfl
        · split
          · rfl
          · split <;> rfl
      text := by
        intro srv srv' eom pos n old old' hbytes
        unfold dnExpandOf
        rw [contents_same hbytes]
        split
        · exact fun h => absurd h (by simp)
        · split
          · exact fun h => absurd h (by simp)
          · split
            · exact fun _ => by
                rw [cString_append_zero (present_ne_zero _),
                  cString_append_zero (present_ne_zero _)]
            · exact fun h => absurd h (by simp) }
  atEnd := fun srv eom pos n old hend =>
    dnExpandOf_readsWithin.outside srv eom pos n old (Or.inr hend)
  fails := dnExpandOf_readsWithin.fails

theorem zeroOutside_memoryOf (msg : List UInt8) :
    zeroOutside msg.length (memoryOf msg) = memoryOf msg := by
  funext i
  unfold zeroOutside
  split
  · rfl
  · next hout =>
      unfold memoryOf
      split
      · rfl
      · rw [List.getElem?_eq_none (by omega)]
        rfl

end LmTransport.Ref
