import LmTransport.Proofs.GnutlsSteps
import LmTransport.Ref.OldSocket

/-!
# What the output buffer keeps

A socket with its buffer is a pipe: what is passed to `old_socket_write` is put
in, what the channel takes comes out, and the buffer is what is held. Each
write and each dispatch of the watch is an operation on that pipe as long as
the step is `Sound`, which leaves out four ways of getting it wrong.

* A call that answered `G_IO_STATUS_AGAIN` after it took some bytes is made
  again from the start of the buffer, so these bytes are sent twice.
* What an erroneous write did not get rid of is in no buffer. The next write
  goes out behind the gap.
* When the drain fails the callback removes its source and leaves the buffer,
  so all later writes are appended to a buffer nobody drains.
* A length of `2 ^ 31` or more does not survive as a `gint`.

Losing data is not the end: the pipe stays in order as long as nothing more is
accepted. So the invariant is that of a pipe that may be short.
-/

namespace LmTransport.Ref.OldSocket

open Gnutls (toGint toGsize)

/-! ## The property -/

/-- The output watch is in the context. -/
def World.watchAttached (w : World) : Bool :=
  (w.priv.watchOut.bind w.context.find).isSome

/-- The remainder is looked at between the calls of `old_socket_do_write`. -/
structure Faithful (w : World) : Prop where
  accepted : w.accepted <+: w.passed
  remainder : w.failed = false → w.control ≠ .writing →
    w.passed = w.accepted ++ w.priv.outBuf.getD []
  watched : w.priv.outBuf.isSome = w.watchAttached

/-! ## The steps that are sound -/

def World.pipe (w : World) : Pipe UInt8 where
  passed := w.passed
  accepted := w.accepted
  held := w.priv.outBuf.getD []

/-- A call that took bytes is not made again, and once something is lost
nothing more is taken. -/
def AnswersInOrder (w : World) (answers : List Answer) : Prop :=
  (∀ answer ∈ answers.dropLast, answer.bytesWritten = 0) ∧
    (w.pipe.Short → ∀ answer ∈ answers, answer.bytesWritten = 0)

/-- The length fits into a `gint`, or it becomes negative and the buffer is as
long as `strlen` finds it. -/
def Copied (buf beyond : List UInt8) : Prop :=
  buf.length < 2 ^ 31 ∨
    toGint buf.length < 0 ∧ (buf ++ beyond).takeWhile (· != 0) = buf

def Sound (w : World) : Label → Prop
  | .write data beyond answers =>
      match w.priv.outBuf with
      | some _ => Copied data beyond
      | none => AnswersInOrder w answers ∧
          match answers.getLast? with
          | some ⟨.normal, n⟩ => n = data.length ∨ n < 2 ^ 31 ∧ Copied (data.drop n) beyond
          | _ => True
  | .dispatch _ answers => AnswersInOrder w answers ∧
      match answers.getLast? with
      | some ⟨.normal, n⟩ => n < 2 ^ 31
      | _ => True
  | .handlersDone => False

/-! ## Widths -/

theorem toGint_of_lt {n : Nat} (h : n < 2 ^ 31) : toGint n = n :=
  Gnutls.toGint_eq (by omega) (by omega)

theorem stringBytes_of_copied {buf beyond : List UInt8} (h : Copied buf beyond) :
    stringBytes buf beyond (toGint buf.length) = buf := by
  unfold stringBytes
  rcases h with hlt | ⟨hneg, hcopied⟩
  · rw [toGint_of_lt hlt, if_neg (by omega), Int.toNat_natCast, List.take_length]
  · rw [if_pos hneg, hcopied]

/-- What a call that took `n` of fewer than `2 ^ 32` bytes comes to as a
`gint`, and whether the rest gets a buffer. -/
theorem rest_buffered_iff {len n : Nat} (hlen : len < 2 ^ 63) (hn : n ≤ len)
    (hgint : n = len ∧ len < 2 ^ 32 ∨ n < 2 ^ 31) :
    (toGsize (toGint n) < len ∧ toGint n ≠ -1) ↔ n < len := by
  rcases hgint with ⟨rfl, hlt⟩ | hlt
  · refine iff_of_false ?_ (Nat.lt_irrefl _)
    rintro ⟨hsmall, -⟩
    have hsplit : toGint n = n ∨ toGint n = n - 2 ^ 32 := by
      unfold toGint
      rw [Int.bmod_def]
      omega
    unfold toGsize at hsmall
    omega
  · rw [toGint_of_lt hlt]
    unfold toGsize
    omega

/-- How much is left, counted as the code does. -/
theorem rest_length {len n : Nat} (hn : n < 2 ^ 31) (hle : n ≤ len) :
    (len : Int) - (toGsize (toGint n) : Int) = (len - n : Nat) := by
  rw [toGint_of_lt hn]
  unfold toGsize
  omega

/-! ## Calls of the channel -/

/-- What `old_socket_do_write` returns after its last call, or that there will
be another one. -/
def Answer.result (answer : Answer) : Option Int :=
  match answer.status with
  | .again => none
  | .normal => some (toGint answer.bytesWritten)
  | _ => some (-1)

/-- Calls that took no bytes and are made again leave no trace. -/
theorem doWrite_eq {buf : List UInt8} {answers : List Answer} (w : World)
    (hagain : ∀ answer ∈ answers.dropLast, answer.status = .again)
    (hzero : ∀ answer ∈ answers.dropLast, answer.bytesWritten = 0) :
    oldSocketDoWrite buf answers w =
      match answers.getLast? with
      | none => (none, w)
      | some answer => (answer.result, gIoChannelWriteChars buf answer w) := by
  induction answers with
  | nil => rfl
  | cons answer answers ih =>
      cases answers with
      | nil =>
          obtain ⟨status, n⟩ := answer
          cases status <;> rfl
      | cons next answers =>
          have hmem : answer ∈ (answer :: next :: answers).dropLast := List.mem_cons_self
          have hfails : answer.fails = false := by
            rw [Answer.fails, hagain answer hmem]
            rfl
          have hnothing : gIoChannelWriteChars buf answer w = w := by
            simp [gIoChannelWriteChars, hfails, hzero answer hmem]
          rw [oldSocketDoWrite, hnothing, hagain answer hmem, List.getLast?_cons_cons]
          exact ih (fun a ha => hagain a (List.mem_cons_of_mem _ ha))
            fun a ha => hzero a (List.mem_cons_of_mem _ ha)

/-- The calls get the beginning of the buffer, as far as a `guint` reaches. -/
theorem writeChars_take {buf : List UInt8} {m : Nat} {answer : Answer} (w : World)
    (h : answer.bytesWritten ≤ m) :
    gIoChannelWriteChars (buf.take m) answer w = gIoChannelWriteChars buf answer w := by
  rw [gIoChannelWriteChars, List.take_take, Nat.min_eq_left h]
  rfl

/-! ## The invariant -/

/-- One watch is attached, or none and there is no buffer. -/
def World.Watched (w : World) : Prop :=
  (∃ id, w.priv.outBuf.isSome = true ∧ w.priv.watchOut = some id ∧
      w.context.sources = [⟨id, w.priv.ioChannel, .out⟩]) ∨
    w.priv.outBuf = none ∧ w.context.sources = []

theorem World.Watched.sources_nil {w : World} (h : w.Watched) (hbuf : w.priv.outBuf = none) :
    w.context.sources = [] := by
  rcases h with ⟨id, hsome, -, -⟩ | ⟨-, hsources⟩
  · rw [hbuf] at hsome
    cases hsome
  · exact hsources

/-- In the handlers of `disconnected` the buffer no longer is what the channel
has not taken. -/
structure Inv (w : World) : Prop where
  watch : w.Watched
  accepted : w.accepted <+: w.passed
  order : w.control = .mainLoop → w.pipe.InOrder
  whole : w.control = .mainLoop → w.failed = false → ¬w.pipe.Short
  emitting : ∀ source, w.control = .emitting source →
    w.failed = true ∧ w.priv.outBuf.isSome = true ∧ w.priv.watchOut = some source

theorem Inv.start {w : World} (h : w.Start) : Inv w := by
  obtain ⟨hbuf, hsources, hcontrol, hpassed, haccepted, -⟩ := h
  have hintact : w.pipe.Intact := by
    simp [Pipe.Intact, World.pipe, hbuf, hpassed, haccepted]
  exact {
    watch := .inr ⟨hbuf, hsources⟩
    accepted := hintact.inOrder.isPrefix
    order := fun _ => hintact.inOrder
    whole := fun _ _ => hintact.not_short
    emitting := fun source h => by rw [hcontrol] at h; cases h }

theorem Inv.faithful {w : World} (h : Inv w) : Faithful w where
  accepted := h.accepted
  remainder := by
    intro hfailed hcontrol
    cases hc : w.control with
    | mainLoop => exact (h.order hc).intact (h.whole hc hfailed)
    | writing => exact absurd hc hcontrol
    | emitting source => exact absurd ((h.emitting source hc).1.symm.trans hfailed) (by decide)
  watched := by
    unfold World.watchAttached GMainContext.find
    rcases h.watch with ⟨id, hbuf, hwatch, hsources⟩ | ⟨hbuf, hsources⟩
    · simp [hbuf, hwatch, hsources]
    · cases w.priv.watchOut <;> simp [hbuf, hsources]

/-- Within a call only the order of what was accepted matters. -/
theorem Inv.inCall {w : World} (hc : w.control = .writing) (haccepted : w.accepted <+: w.passed)
    (hwatch : w.Watched) : Inv w where
  watch := hwatch
  accepted := haccepted
  order h := by rw [hc] at h; cases h
  whole h := by rw [hc] at h; cases h
  emitting source h := by rw [hc] at h; cases h

theorem Inv.inMainLoop {w : World} (hc : w.control = .mainLoop) (hwatch : w.Watched)
    (horder : w.pipe.InOrder) (hwhole : w.failed = false → ¬w.pipe.Short) : Inv w where
  watch := hwatch
  accepted := horder.isPrefix
  order _ := horder
  whole _ := hwhole
  emitting source h := by rw [hc] at h; cases h

/-! ## Steps -/

/-- A write that is appended. The handlers of `disconnected` may do it as well
as the main loop. -/
theorem Inv.append {w : World} (h : Inv w) {buf : List UInt8} (hbuf : w.priv.outBuf = some buf)
    (data : List UInt8) :
    Inv { w with
      passed := w.passed ++ data
      priv := { w.priv with outBuf := some (buf ++ data) } } := by
  have hpipe : World.pipe { w with
      passed := w.passed ++ data
      priv := { w.priv with outBuf := some (buf ++ data) } } = w.pipe.put data := by
    simp [World.pipe, Pipe.put, hbuf]
  refine ⟨?_, h.accepted.trans (List.prefix_append _ _), fun hc => ?_, fun hc hfailed => ?_,
    fun source hc => ⟨(h.emitting source hc).1, rfl, (h.emitting source hc).2.2⟩⟩
  · rcases h.watch with ⟨id, -, hwatch, hsources⟩ | ⟨hnone, -⟩
    · exact .inl ⟨id, rfl, hwatch, hsources⟩
    · rw [hbuf] at hnone
      cases hnone
  · rw [hpipe]
    exact (h.order hc).put data
  · rw [hpipe, Pipe.short_put]
    exact h.whole hc hfailed

/-- The answer a step ends with takes nothing from a pipe that is short. -/
theorem AnswersInOrder.last {w : World} {answers : List Answer} (h : AnswersInOrder w answers)
    {answer : Answer} (hlast : answers.getLast? = some answer) :
    w.pipe.Short → answer.bytesWritten = 0 := fun hshort =>
  h.2 hshort answer (List.mem_of_getLast? hlast)

/-! A write without a buffer, by the last answer. -/

section
variable {w : World} {data : List UInt8} {n : Nat}

/-- The pipe when no buffer is made. -/
theorem direct_pipe (hbuf : w.priv.outBuf = none) (answer : Answer) :
    World.pipe (gIoChannelWriteChars data answer { w with passed := w.passed ++ data }) =
      ((w.pipe.put data).accept answer.bytesWritten).lose := by
  simp [World.pipe, gIoChannelWriteChars, Pipe.lose, Pipe.accept, Pipe.put, hbuf]

/-- Everything was taken, so nothing is lost without a buffer. -/
theorem direct_taken (hc : w.control = .mainLoop) (hbuf : w.priv.outBuf = none)
    (hsources : w.context.sources = []) (hwhole : w.failed = false → ¬w.pipe.Short)
    (haccept : ((w.pipe.put data).accept n).InOrder) (hn : data.length ≤ n) :
    Inv (gIoChannelWriteChars data ⟨.normal, n⟩ { w with passed := w.passed ++ data }) := by
  have hlose : ((w.pipe.put data).accept n).lose = (w.pipe.put data).accept n := by
    simp [World.pipe, Pipe.lose, Pipe.accept, Pipe.put, hbuf, hn]
  have hnew := (direct_pipe hbuf ⟨.normal, n⟩).trans hlose
  refine Inv.inMainLoop hc (.inr ⟨hbuf, hsources⟩) (hnew ▸ haccept) fun hfailed => ?_
  rw [hnew, Pipe.short_accept, Pipe.short_put]
  exact hwhole (Bool.or_eq_false_iff.mp hfailed).1

/-- The rest of the data becomes the buffer. -/
theorem direct_rest (hc : w.control = .mainLoop) (hbuf : w.priv.outBuf = none)
    (hsources : w.context.sources = []) (hwhole : w.failed = false → ¬w.pipe.Short)
    (haccept : ((w.pipe.put data).accept n).InOrder) {beyond : List UInt8}
    (hcopied : Copied (data.drop n) beyond) :
    Inv (oldSocketSetupOutputBuffer (data.drop n) beyond (toGint (data.drop n).length)
      (gIoChannelWriteChars data ⟨.normal, n⟩ { w with passed := w.passed ++ data })) := by
  have hnew : World.pipe (oldSocketSetupOutputBuffer (data.drop n) beyond
      (toGint (data.drop n).length) (gIoChannelWriteChars data ⟨.normal, n⟩
        { w with passed := w.passed ++ data })) = (w.pipe.put data).accept n := by
    rw [oldSocketSetupOutputBuffer, stringBytes_of_copied hcopied]
    simp [World.pipe, gIoChannelWriteChars, Pipe.accept, Pipe.put, hbuf]
  refine Inv.inMainLoop hc (.inl ⟨w.context.nextId, rfl, rfl, ?_⟩) (hnew ▸ haccept)
    fun hfailed => ?_
  · simp [oldSocketSetupOutputBuffer, lmMiscAddIoWatch, gIoChannelWriteChars, hsources]
  · rw [hnew, Pipe.short_accept, Pipe.short_put]
    exact hwhole (Bool.or_eq_false_iff.mp hfailed).1

/-- What was not accepted is lost. -/
theorem direct_failed (hc : w.control = .mainLoop) (hbuf : w.priv.outBuf = none)
    (hsources : w.context.sources = []) {answer : Answer}
    (haccept : ((w.pipe.put data).accept answer.bytesWritten).InOrder)
    (hfails : answer.fails = true) :
    Inv (gIoChannelWriteChars data answer { w with passed := w.passed ++ data }) := by
  have hnew := @direct_pipe w data hbuf answer
  refine Inv.inMainLoop hc (.inr ⟨hbuf, hsources⟩) (hnew ▸ haccept.lose) fun hfailed => ?_
  rw [gIoChannelWriteChars, hfails, Bool.or_true] at hfailed
  cases hfailed

end

theorem Inv.direct {w : World} (h : Inv w) (hc : w.control = .mainLoop)
    (hbuf : w.priv.outBuf = none) {data beyond : List UInt8} {answers : List Answer}
    (hlen : data.length < 2 ^ 63) (hanswers : AnswersTo (data.length % 2 ^ 32) answers)
    (hs : Sound w (.write data beyond answers)) : Inv (oldSocketWrite data beyond answers w) := by
  have hsources := h.watch.sources_nil hbuf
  have hput : (w.pipe.put data).InOrder := (h.order hc).put data
  unfold Sound at hs
  rw [hbuf] at hs
  obtain ⟨horder, hs⟩ := hs
  unfold oldSocketWrite oldSocketOutputIsBuffered
  simp only [hbuf, doWrite_eq _ hanswers.2 horder.1]
  cases hlast : answers.getLast? with
  | none =>
      exact Inv.inCall rfl hput.isPrefix (.inr ⟨hbuf, hsources⟩)
  | some answer =>
      obtain ⟨status, n⟩ := answer
      have hcount : n ≤ data.length % 2 ^ 32 := hanswers.1 _ (List.mem_of_getLast? hlast)
      have haccept : ((w.pipe.put data).accept n).InOrder :=
        hput.accept fun hshort => horder.last hlast (Pipe.short_put.mp hshort)
      simp only [@writeChars_take data _ ⟨status, n⟩ _ hcount]
      rw [hlast] at hs
      cases status with
      | again =>
          have hnew := @direct_pipe w data hbuf ⟨.again, n⟩
          exact Inv.inCall rfl (hnew ▸ haccept.lose).isPrefix (.inr ⟨hbuf, hsources⟩)
      | normal =>
          have hrest := @rest_buffered_iff data.length n hlen (by omega) (by omega)
          simp only [Answer.result]
          split
          · next hbuffered =>
              have hlt := hrest.mp hbuffered
              have hn31 : n < 2 ^ 31 := by omega
              rw [rest_length hn31 (Nat.le_of_lt hlt), ← List.length_drop, toGint_of_lt hn31,
                Int.toNat_natCast]
              exact direct_rest hc hbuf hsources (h.whole hc) haccept
                (hs.resolve_left (Nat.ne_of_lt hlt)).2
          · next hall =>
              exact direct_taken hc hbuf hsources (h.whole hc) haccept
                (Nat.le_of_not_lt (mt hrest.mpr hall))
      | error =>
          simp only [Answer.result, if_neg (fun h : _ ∧ (-1 : Int) ≠ -1 => h.2 rfl)]
          exact direct_failed hc hbuf hsources haccept rfl
      | eof =>
          simp only [Answer.result, if_neg (fun h : _ ∧ (-1 : Int) ≠ -1 => h.2 rfl)]
          exact direct_failed hc hbuf hsources haccept rfl

/-! The callback of the watch, by the last answer. -/

section
variable {w : World} {id n : Nat} {buf : List UInt8}

theorem drain_done (hc : w.control = .mainLoop)
    (hsources : w.context.sources = [⟨id, w.priv.ioChannel, .out⟩])
    (hbuf : w.priv.outBuf = some buf) (hempty : buf.drop n = [])
    (haccept : (w.pipe.accept n).InOrder) (hwhole : w.failed = false → ¬(w.pipe.accept n).Short) :
    let taken := gIoChannelWriteChars buf ⟨.normal, n⟩ w
    Inv { taken with
      context := (taken.context.destroy id).destroy id
      priv := { taken.priv with watchOut := none, outBuf := none } } := by
  intro taken
  have hnew : World.pipe { taken with
      context := (taken.context.destroy id).destroy id
      priv := { taken.priv with watchOut := none, outBuf := none } } = w.pipe.accept n := by
    simp [taken, World.pipe, gIoChannelWriteChars, Pipe.accept, hbuf, hempty]
  refine Inv.inMainLoop hc (.inr ⟨rfl, ?_⟩) (hnew ▸ haccept) fun hfailed => ?_
  · simp [taken, gIoChannelWriteChars, GMainContext.destroy, hsources]
  · rw [hnew]
    exact hwhole (Bool.or_eq_false_iff.mp hfailed).1

theorem drain_rest (hc : w.control = .mainLoop)
    (hsources : w.context.sources = [⟨id, w.priv.ioChannel, .out⟩])
    (hbuf : w.priv.outBuf = some buf) (hwatch : w.priv.watchOut = some id)
    (haccept : (w.pipe.accept n).InOrder) (hwhole : w.failed = false → ¬(w.pipe.accept n).Short) :
    let taken := gIoChannelWriteChars buf ⟨.normal, n⟩ w
    Inv { taken with priv := { taken.priv with outBuf := some (buf.drop n) } } := by
  intro taken
  have hnew : World.pipe { taken with priv := { taken.priv with outBuf := some (buf.drop n) } } =
      w.pipe.accept n := by
    simp [taken, World.pipe, gIoChannelWriteChars, Pipe.accept, hbuf]
  refine Inv.inMainLoop hc (.inl ⟨id, rfl, hwatch, hsources⟩) (hnew ▸ haccept) fun hfailed => ?_
  rw [hnew]
  exact hwhole (Bool.or_eq_false_iff.mp hfailed).1

/-- The buffer is left as it was, and the watch until the handlers are done. -/
theorem drain_failed (hsources : w.context.sources = [⟨id, w.priv.ioChannel, .out⟩])
    (hbuf : w.priv.outBuf = some buf) (hwatch : w.priv.watchOut = some id) {answer : Answer}
    (haccepted : w.accepted ++ buf.take answer.bytesWritten <+: w.passed)
    (hfails : answer.fails = true) :
    Inv { gIoChannelWriteChars buf answer w with control := .emitting id } where
  watch := .inl ⟨id, Option.isSome_of_eq_some hbuf, hwatch, hsources⟩
  accepted := haccepted
  order h := by cases h
  whole h := by cases h
  emitting source h := by
    cases h
    refine ⟨?_, Option.isSome_of_eq_some hbuf, hwatch⟩
    rw [gIoChannelWriteChars, hfails, Bool.or_true]

end

/-- The drain. Its callback is called by the one watch there is. -/
theorem Inv.drain {w : World} (h : Inv w) (hc : w.control = .mainLoop) {source : Nat}
    (hsource : (w.context.find source).isSome = true) {answers : List Answer}
    (hanswers : AnswersTo ((w.priv.outBuf.getD []).length % 2 ^ 32) answers)
    (hs : Sound w (.dispatch source answers)) : Inv (gMainContextDispatch source answers w) := by
  obtain ⟨id, hsome, hwatch, hsources⟩ | ⟨-, hsources⟩ := h.watch
  · obtain ⟨buf, hbuf⟩ := Option.isSome_iff_exists.mp hsome
    have hid : id = source := by
      rw [GMainContext.find, hsources] at hsource
      simpa using hsource
    subst hid
    rw [hbuf, Option.getD_some] at hanswers
    obtain ⟨horder, hs⟩ := hs
    unfold gMainContextDispatch socketBufferedWriteCb
    simp only [hbuf, doWrite_eq _ hanswers.2 horder.1]
    cases hlast : answers.getLast? with
    | none => exact Inv.inCall rfl h.accepted h.watch
    | some answer =>
        obtain ⟨status, n⟩ := answer
        have hcount : n ≤ buf.length % 2 ^ 32 := hanswers.1 _ (List.mem_of_getLast? hlast)
        have haccept : (w.pipe.accept n).InOrder := (h.order hc).accept (horder.last hlast)
        have haccepted : w.accepted ++ buf.take n <+: w.passed := by
          simpa [World.pipe, Pipe.accept, hbuf] using haccept.isPrefix
        simp only [@writeChars_take buf _ ⟨status, n⟩ _ hcount]
        rw [hlast] at hs
        cases status with
        | again => exact Inv.inCall rfl haccepted h.watch
        | normal =>
            have hwhole : w.failed = false → ¬(w.pipe.accept n).Short := fun hfailed => by
              rw [Pipe.short_accept]
              exact h.whole hc hfailed
            have hnonneg : ¬(n : Int) < 0 := Int.not_lt.mpr (Int.natCast_nonneg n)
            have hout : (gIoChannelWriteChars buf ⟨.normal, n⟩ w).priv.watchOut = some id := hwatch
            simp only [Answer.result, toGint_of_lt hs, if_neg hnonneg, Int.toNat_natCast]
            by_cases hempty : (buf.drop n).length = 0
            · simp only [if_pos hempty, hout]
              have hnil : buf.drop n = [] := List.eq_nil_of_length_eq_zero hempty
              exact drain_done hc hsources hbuf hnil haccept hwhole
            · simp only [if_neg hempty]
              exact drain_rest hc hsources hbuf hwatch haccept hwhole
        | error => exact @drain_failed w id buf hsources hbuf hwatch ⟨.error, n⟩ haccepted rfl
        | eof => exact @drain_failed w id buf hsources hbuf hwatch ⟨.eof, n⟩ haccepted rfl
  · rw [GMainContext.find, hsources] at hsource
    cases hsource

theorem Inv.step {w t : World} {a : Label} (h : Inv w) (hs : Sound w a)
    (hstep : step w a = some t) : Inv t := by
  cases a with
  | write data beyond answers =>
      rw [OldSocket.step] at hstep
      split at hstep
      · next hguard =>
          obtain ⟨hcontrol, hlen, hanswers⟩ := hguard
          rw [Option.some.injEq] at hstep
          subst hstep
          cases hbuf : w.priv.outBuf with
          | none =>
              -- the handlers of a failed drain never see an empty buffer
              have hc : w.control = .mainLoop := by
                cases hc : w.control with
                | mainLoop => rfl
                | writing => exact absurd hc hcontrol
                | emitting source =>
                    have hsome := (h.emitting source hc).2.1
                    rw [hbuf] at hsome
                    cases hsome
              exact h.direct hc hbuf hlen hanswers hs
          | some buf =>
              unfold Sound at hs
              rw [hbuf] at hs
              unfold oldSocketWrite oldSocketOutputIsBuffered
              simp only [hbuf, stringBytes_of_copied hs]
              exact h.append hbuf data
      · cases hstep
  | dispatch source answers =>
      rw [OldSocket.step] at hstep
      split at hstep
      · next hguard =>
          obtain ⟨hc, hsource, hanswers⟩ := hguard
          rw [Option.some.injEq] at hstep
          subst hstep
          exact h.drain hc hsource hanswers hs
      · cases hstep
  | handlersDone => exact absurd hs not_false

/-! ## Runs -/

/-- The channel gets what was written, in order and without a gap, and what it
has not got yet is in the buffer with a watch to drain it. -/
theorem output_in_order {w t : World} {as : List Label} (hstart : w.Start)
    (hsound : Lts.Meets step Sound w as) (h : Lts.exec step w as = some t) : Faithful t :=
  (Lts.exec_invariant (fun _ _ _ hI hs hstep => hI.step hs hstep) (Inv.start hstart) hsound
    h).faithful

def newSocket : World := { priv := { ioChannel := ⟨0, 3⟩ }, context := {} }

/-- A write that is taken half, one that is appended, and a drain that needs
two calls and leaves a byte. -/
theorem output_in_order_drained :
    ∃ t, Lts.exec step newSocket
        [.write [97, 98] [] [⟨.normal, 1⟩], .write [99, 100] [] [],
          .dispatch 0 [⟨.again, 0⟩, ⟨.normal, 2⟩]] = some t ∧
      t.accepted = [97, 98, 99] ∧ t.priv.outBuf = some [100] ∧ Faithful t := by
  have hsound : Lts.Meets step Sound newSocket
      [.write [97, 98] [] [⟨.normal, 1⟩], .write [99, 100] [] [],
        .dispatch 0 [⟨.again, 0⟩, ⟨.normal, 2⟩]] := by
    refine fun t ht => ⟨⟨⟨by decide, by decide⟩, .inr ⟨by decide, .inl (by decide)⟩⟩, ?_⟩
    cases ht
    refine fun t ht => ⟨.inl (by decide), ?_⟩
    cases ht
    refine fun t _ => ⟨⟨⟨by decide, by decide⟩, ?_⟩, trivial⟩
    show 2 < 2 ^ 31
    decide
  exact ⟨_, rfl, rfl, rfl, output_in_order ⟨rfl, rfl, rfl, rfl, rfl, rfl⟩ hsound rfl⟩

/-- Once the handlers of a failed drain are done there is a buffer and no
watch. -/
theorem handlersDone_unwatched {w t : World} (h : Inv w)
    (hstep : step w .handlersDone = some t) : ¬Faithful t := by
  rw [step] at hstep
  split at hstep
  · next source hc =>
      rw [Option.some.injEq] at hstep
      subst hstep
      obtain ⟨-, hsome, hwatch⟩ := h.emitting source hc
      have hdetached : World.watchAttached
          { w with control := .mainLoop, context := w.context.destroy source } = false := by
        simp [World.watchAttached, hwatch, GMainContext.find, GMainContext.destroy]
      intro hfaithful
      exact absurd (hsome.symm.trans (hfaithful.watched.trans hdetached)) (by decide)
  · cases hstep

/-- A byte is sent twice, a write goes out behind a gap, and a buffer is left
without a watch. -/
theorem output_out_of_order :
    (∃ t, Lts.exec step newSocket
        [.write [97, 98] [] [⟨.again, 1⟩, ⟨.normal, 2⟩]] = some t ∧
      t.passed = [97, 98] ∧ t.accepted = [97, 97, 98] ∧ ¬Faithful t) ∧
    (∃ t, Lts.exec step newSocket
        [.write [97, 98] [] [⟨.error, 0⟩], .write [99, 100] [] [⟨.normal, 2⟩]] = some t ∧
      t.passed = [97, 98, 99, 100] ∧ t.accepted = [99, 100] ∧ ¬Faithful t) ∧
    ∃ t, Lts.exec step newSocket
        [.write [97, 98] [] [⟨.normal, 1⟩], .dispatch 0 [⟨.eof, 0⟩], .handlersDone] = some t ∧
      t.priv.outBuf = some [98] ∧ t.watchAttached = false ∧ ¬Faithful t := by
  refine ⟨⟨_, rfl, rfl, rfl, fun h => ?_⟩, ⟨_, rfl, rfl, rfl, fun h => ?_⟩,
    ⟨_, rfl, rfl, rfl, fun h => ?_⟩⟩
  · exact absurd h.accepted (by decide)
  · exact absurd h.accepted (by decide)
  · exact absurd h.watched (by decide)

end LmTransport.Ref.OldSocket
