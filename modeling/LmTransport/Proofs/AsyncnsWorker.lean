import LmTransport.Ref.AsyncnsWorker

/-!
# What a worker goes into its loop with

A worker inherits everything its client has open. With `/proc/self/fd` it is left
with `/dev/null` three times and the two sockets it needs, and with signals that
do what `asyncns_free` relies on. Every descriptor that is open has a name in
the directory, so the argument is about what the loop over the names does to a
number: `closeEntries_closes` for those it closes, `closeEntries_keeps` for the
others.

Without the directory it is a different story. The loop over all numbers excepts
none of them but those up to 3, so the socket to the client is closed as well.
-/

namespace LmTransport.Ref.Libasyncns

variable {calls : SystemCalls} {p q : Process} {n : Nat}

/-! ## Descriptors -/

@[simp] theorem Process.close_files (n : Nat) (p : Process) :
    (p.close n).files = Function.update p.files n none := rfl

@[simp] theorem Process.install_files (n : Nat) (file : File) (p : Process) :
    (p.install n file).files = Function.update p.files n (some file) := rfl

theorem Process.openFd_cases {file : File} (h : p.openFd file = some (n, q)) :
    p.files n = none ∧ n < p.limit ∧ (∀ m, m < n → (p.files m).isSome = true) ∧
      q = p.install n file := by
  simp only [openFd, freeFd, Option.map_eq_some_iff, List.find?_range_eq_some, List.mem_range,
    Prod.mk.injEq, Option.isNone_iff_eq_none] at h
  obtain ⟨m, ⟨hfree, hlt, hlower⟩, rfl, rfl⟩ := h
  refine ⟨hfree, hlt, fun k hk => ?_, rfl⟩
  have hk' := hlower k hk
  rwa [Bool.not_eq_true', Option.isNone_eq_false_iff] at hk'

theorem Process.openFd_isSome (file : File) (hfree : p.files n = none) (hlt : n < p.limit) :
    ∃ m r, p.openFd file = some (m, r) := by
  cases hfd : p.freeFd with
  | none =>
      rw [freeFd, List.find?_range_eq_none] at hfd
      have hn := hfd n hlt
      simp [hfree] at hn
  | some m => exact ⟨m, _, by rw [openFd, hfd]; rfl⟩

/-! ## The loop over the directory -/

/-- A digit is neither a blank nor a sign nor a dot. -/
theorem digit_cases {b : UInt8} (hb : Decimal.isDigit b = true) :
    isSpace b = false ∧ b ≠ 45 ∧ b ≠ 43 ∧ b ≠ 46 := by
  simp only [Decimal.isDigit, Bool.and_eq_true, decide_eq_true_eq] at hb
  refine ⟨?_, ?_, ?_, ?_⟩
  · simp only [isSpace, Bool.or_eq_false_iff, decide_eq_false_iff_not, Bool.and_eq_false_imp,
      decide_eq_true_eq]
    refine ⟨?_, by omega⟩
    rintro rfl
    simp at hb
  all_goals
    rintro rfl
    simp at hb

theorem signOf_digits {s : List UInt8} (hs : ∀ b ∈ s, Decimal.isDigit b = true) :
    signOf s = (false, s) := by
  unfold signOf
  split
  · exact absurd rfl (digit_cases (hs _ List.mem_cons_self)).2.1
  · exact absurd rfl (digit_cases (hs _ List.mem_cons_self)).2.2.1
  · rfl

/-- `strtol` reads the text of a number. -/
theorem strtol_text (hn : (n : Int) ≤ longMax) :
    strtol (Decimal.text n) = ((n : Int), [], false) := by
  have hdigits : ∀ b ∈ Decimal.text n, Decimal.isDigit b = true := fun b hb =>
    Decimal.isDigit_of_mem_text hb
  have hspace : (Decimal.text n).dropWhile isSpace = Decimal.text n :=
    List.dropWhile_eq_self_iff.mpr fun hlen => by
      simp [(digit_cases (hdigits _ (List.getElem_mem hlen))).1]
  have htake : (Decimal.text n).takeWhile Decimal.isDigit = Decimal.text n :=
    List.takeWhile_eq_self_iff.mpr hdigits
  have hdrop : (Decimal.text n).dropWhile Decimal.isDigit = [] :=
    List.dropWhile_eq_nil_iff.mpr hdigits
  have hmin : ¬ (n : Int) < longMin := by
    unfold longMin
    omega
  simp only [strtol, hspace, signOf_digits hdigits, htake, hdrop, Decimal.value_text,
    Decimal.text_ne_nil, if_false, Bool.false_eq_true, hmin, Int.not_lt.mpr hn]

theorem head?_text (n : Nat) : (Decimal.text n).head? ≠ some 46 := by
  intro h
  exact (digit_cases (Decimal.isDigit_of_mem_text (List.mem_of_mem_head? h))).2.2.2 rfl

theorem toInt_ofInt_fd (hn : n < 2147483648) : (Int32.ofInt n).toInt = n :=
  Int32.toInt_ofInt_of_le (by omega) (by omega)

variable {except : List Nat} {dirfd : Nat} {name : List UInt8} {names : List (List UInt8)}

/-- A number that the loop may close. -/
def Closable (except : List Nat) (dirfd n : Nat) : Prop := 3 ≤ n ∧ n ≠ dirfd ∧ n ∉ except

theorem closeFd_cases {r : Process} {err : Option Errno} (h : closeFd calls n p = (err, r)) :
    (p.files n = none ∧ err = some .ebadf ∧ r = p) ∨ (err = calls.close n ∧ r = p.close n) := by
  unfold closeFd at h
  split at h
  · next hnone =>
      obtain ⟨rfl, rfl⟩ := Prod.mk.inj h
      exact Or.inl ⟨Option.isNone_iff_eq_none.mp hnone, rfl, rfl⟩
  · obtain ⟨rfl, rfl⟩ := Prod.mk.inj h
    exact Or.inr ⟨rfl, rfl⟩

/-- One name, in a loop that succeeds. -/
theorem closeEntries_cons (h : closeEntries calls except dirfd (name :: names) p = (true, q)) :
    ∃ r, closeEntries calls except dirfd names r = (true, q) ∧
      (r = p ∨ ∃ n, Closable except dirfd n ∧ r = p.close n) ∧
      ∀ n, name = Decimal.text n → n < 2147483648 → Closable except dirfd n → r = p.close n := by
  rw [closeEntries] at h
  split at h
  · next hdot =>
      refine ⟨p, h, Or.inl rfl, fun n hname _ _ => ?_⟩
      rw [hname] at hdot
      exact absurd hdot (head?_text n)
  · simp only at h
    split at h
    · cases h
    · split at h
      · cases h
      · next hl =>
          rw [not_not] at hl
          split at h
          · next hskip =>
              refine ⟨p, h, Or.inl rfl, fun n hname hn hclose => ?_⟩
              rw [hname, strtol_text (by unfold longMax; omega), toInt_ofInt_fd hn] at hskip
              obtain ⟨hthree, hdirfd, hexcept⟩ := hclose
              rcases hskip with hlt | heq | hmem
              · omega
              · omega
              · exact absurd hmem hexcept
          · next hkeep =>
              simp only [not_or, Int.not_lt] at hkeep
              obtain ⟨hthree, hdirfd, hexcept⟩ := hkeep
              have hclose : Closable except dirfd (Int32.ofInt (strtol name).1).toInt.toNat :=
                ⟨by omega, by omega, hexcept⟩
              split at h
              · next r hfd =>
                  obtain ⟨-, herr, -⟩ | ⟨-, rfl⟩ := closeFd_cases hfd
                  · cases herr
                  · refine ⟨_, h, Or.inr ⟨_, hclose, rfl⟩, fun n hname hn _ => ?_⟩
                    rw [hname, strtol_text (by unfold longMax; omega), toInt_ofInt_fd hn]
                    rfl
              · cases h

/-- Numbers that are not to be closed, and what the loop does not touch. -/
theorem closeEntries_keeps (h : closeEntries calls except dirfd names p = (true, q)) :
    q.limit = p.limit ∧ q.handlers = p.handlers ∧ q.uid = p.uid ∧
      ∀ n, q.files n = p.files n ∨ Closable except dirfd n ∧ q.files n = none := by
  induction names generalizing p with
  | nil =>
      obtain rfl := (Prod.mk.inj h).2
      exact ⟨rfl, rfl, rfl, fun _ => Or.inl rfl⟩
  | cons name names ih =>
      obtain ⟨r, hr, hcases, -⟩ := closeEntries_cons h
      obtain ⟨hlimit, hhandlers, huid, hfiles⟩ := ih hr
      rcases hcases with rfl | ⟨m, hm, rfl⟩
      · exact ⟨hlimit, hhandlers, huid, hfiles⟩
      · refine ⟨hlimit, hhandlers, huid, fun n => ?_⟩
        by_cases hnm : n = m
        · subst hnm
          rcases hfiles n with heq | hnone
          · rw [Process.close_files, Function.update_self] at heq
            exact Or.inr ⟨hm, heq⟩
          · exact Or.inr hnone
        · have hn := hfiles n
          rwa [Process.close_files, Function.update_of_ne hnm] at hn

/-- A number whose name is in the directory. -/
theorem closeEntries_closes (h : closeEntries calls except dirfd names p = (true, q))
    (hname : Decimal.text n ∈ names) (hn : n < 2147483648) (hclose : Closable except dirfd n) :
    q.files n = none := by
  induction names generalizing p with
  | nil => cases hname
  | cons name names ih =>
      obtain ⟨r, hr, -, hthis⟩ := closeEntries_cons h
      rcases List.mem_cons.mp hname with heq | hmem
      · rcases (closeEntries_keeps hr).2.2.2 n with hsame | hnone
        · rw [hsame, hthis n heq.symm hn hclose, Process.close_files, Function.update_self]
        · exact hnone.2
      · exact ih hr hmem

/-! ## The loop over all numbers -/

/-- It closes whatever is beyond 3, and does not know of any exception. -/
theorem closeNumbers_files {fds : List Nat} (h : closeNumbers calls fds p = (true, q)) :
    q.handlers = p.handlers ∧ q.uid = p.uid ∧
      ∀ n, q.files n = if 3 < n ∧ n ∈ fds then none else p.files n := by
  induction fds generalizing p with
  | nil =>
      obtain rfl := (Prod.mk.inj h).2
      exact ⟨rfl, rfl, fun n => by simp⟩
  | cons fd fds ih =>
      rw [closeNumbers] at h
      split at h
      · next hthree =>
          obtain ⟨hhandlers, huid, hfiles⟩ := ih h
          refine ⟨hhandlers, huid, fun n => ?_⟩
          rw [hfiles n]
          by_cases hn : n = fd
          · rw [if_neg (by omega), if_neg (by omega)]
          · simp [hn]
      · next hthree =>
          have hclosed : ∀ r err, closeFd calls fd p = (err, r) → r = p.close fd := by
            intro r err hfd
            obtain ⟨hfree, -, rfl⟩ | ⟨-, rfl⟩ := closeFd_cases hfd
            · rw [Process.close, Function.update_eq_self_iff.mpr hfree.symm]
            · rfl
          have hrest : closeNumbers calls fds (p.close fd) = (true, q) →
              q.handlers = p.handlers ∧ q.uid = p.uid ∧
                ∀ n, q.files n = if 3 < n ∧ n ∈ fd :: fds then none else p.files n := by
            intro hloop
            obtain ⟨hhandlers, huid, hfiles⟩ := ih hloop
            refine ⟨hhandlers, huid, fun n => ?_⟩
            rw [hfiles n, Process.close_files]
            by_cases hn : n = fd
            · subst hn
              simp [Function.update_self, show 3 < n by omega]
            · rw [Function.update_of_ne hn]
              simp [hn]
          split at h
          · next r hfd => exact hrest (hclosed r _ hfd ▸ h)
          · next r hfd => exact hrest (hclosed r _ hfd ▸ h)
          · cases h

/-! ## Signals and privileges -/

@[simp] theorem Process.setHandler_handlers (sig : Nat) (handler : Handler) (p : Process) :
    (p.setHandler sig handler).handlers = Function.update p.handlers sig handler := rfl

theorem resetSignals_handlers {sigs : List Nat}
    (h : resetSignals calls except sigs p = (true, q)) :
    q.files = p.files ∧ q.limit = p.limit ∧ q.uid = p.uid ∧ ∀ sig, q.handlers sig =
      if sig ∈ sigs ∧ ¬(sig = sigkill ∨ sig = sigstop ∨ sig ∈ except) ∧
          calls.sigaction sig = none then .dfl
      else p.handlers sig := by
  induction sigs generalizing p with
  | nil =>
      obtain rfl := (Prod.mk.inj h).2
      exact ⟨rfl, rfl, rfl, fun sig => by simp⟩
  | cons s sigs ih =>
      rw [resetSignals] at h
      -- the signal that is looked at keeps its handler
      have hkept : resetSignals calls except sigs p = (true, q) →
          ((s = sigkill ∨ s = sigstop ∨ s ∈ except) ∨ calls.sigaction s ≠ none) →
          q.files = p.files ∧ q.limit = p.limit ∧ q.uid = p.uid ∧ ∀ sig, q.handlers sig =
            if sig ∈ s :: sigs ∧ ¬(sig = sigkill ∨ sig = sigstop ∨ sig ∈ except) ∧
                calls.sigaction sig = none then .dfl
            else p.handlers sig := by
        intro hloop hs
        obtain ⟨hfiles, hlimit, huid, hhandlers⟩ := ih hloop
        refine ⟨hfiles, hlimit, huid, fun sig => ?_⟩
        rw [hhandlers sig]
        by_cases hsig : sig = s
        · subst hsig
          rw [if_neg (by tauto), if_neg (by tauto)]
        · simp [hsig]
      split at h
      · next hskip => exact hkept h (Or.inl hskip)
      · next hreset =>
          split at h
          · next hok =>
              obtain ⟨hfiles, hlimit, huid, hhandlers⟩ := ih h
              refine ⟨hfiles, hlimit, huid, fun sig => ?_⟩
              rw [hhandlers sig, Process.setHandler_handlers]
              by_cases hsig : sig = s
              · subst hsig
                simp [hreset, hok]
              · rw [Function.update_of_ne hsig]
                simp [hsig]
          · next herr => exact hkept h (Or.inr (by rw [herr]; simp))
          · cases h

theorem ignoreSigsv_handlers {sigs : List Nat} (h : ignoreSigsv calls sigs p = (true, q)) :
    q.files = p.files ∧ q.limit = p.limit ∧ q.uid = p.uid ∧
      ∀ sig, q.handlers sig = if sig ∈ sigs then .ign else p.handlers sig := by
  induction sigs generalizing p with
  | nil =>
      obtain rfl := (Prod.mk.inj h).2
      exact ⟨rfl, rfl, rfl, fun sig => by simp⟩
  | cons s sigs ih =>
      rw [ignoreSigsv] at h
      split at h
      · obtain ⟨hfiles, hlimit, huid, hhandlers⟩ := ih h
        refine ⟨hfiles, hlimit, huid, fun sig => ?_⟩
        rw [hhandlers sig, Process.setHandler_handlers]
        by_cases hsig : sig = s
        · subst hsig
          simp
        · rw [Function.update_of_ne hsig]
          simp [hsig]
      · cases h

theorem dropPrivileges_cases (h : dropPrivileges calls p = (true, q)) :
    q = { p with uid := q.uid } ∧
      (p.uid = 0 → ∀ uid, calls.nobody = some uid → q.uid = uid) := by
  unfold dropPrivileges at h
  split at h
  · next huid =>
      obtain rfl := (Prod.mk.inj h).2
      exact ⟨rfl, fun hzero => absurd hzero huid⟩
  · split at h
    · next hnobody =>
        obtain rfl := (Prod.mk.inj h).2
        exact ⟨rfl, fun _ uid huid => by rw [hnobody] at huid; cases huid⟩
    · next uid hnobody =>
        split at h
        · obtain rfl := (Prod.mk.inj h).2
          exact ⟨rfl, fun _ u hu => Option.some.inj (hnobody.symm.trans hu)⟩
        · cases h

/-! ## `process_worker` -/

theorem orFail_cases {r : Bool × Process} {rest : Process → Bool × Process}
    (h : orFail r rest = (true, q)) : ∃ s, r = (true, s) ∧ rest s = (true, q) := by
  unfold orFail at h
  split at h
  · next hok => exact ⟨r.2, Prod.ext hok rfl, h⟩
  · next hfail =>
      rw [h] at hfail
      exact absurd rfl hfail

theorem openNull_cases {writing : Bool} (h : openNull calls n writing p = (true, q)) :
    q = p.install n (.devNull writing) := by
  unfold openNull at h
  split at h
  · next fd r hopen =>
      obtain ⟨hfd, rfl⟩ := Prod.mk.inj h
      rw [decide_eq_true_eq] at hfd
      split at hopen
      · obtain ⟨-, -, -, rfl⟩ := Process.openFd_cases hopen
        rw [hfd]
      · cases hopen
  · cases h

/-- The process that is about to close what it has open. -/
structure Prepared (calls : SystemCalls) (p r : Process) : Prop where
  limit : r.limit = p.limit
  null : r.files 0 = some (.devNull false) ∧ r.files 1 = some (.devNull true) ∧
    r.files 2 = some (.devNull true)
  files : ∀ n, 3 ≤ n → r.files n = p.files n
  ignored : ∀ sig ∈ ignoreSigs, r.handlers sig = .ign
  default : ∀ sig, 1 ≤ sig → sig < nsig → sig ∉ ignoreSigs → sig ≠ sigkill → sig ≠ sigstop →
    calls.sigaction sig = none → r.handlers sig = .dfl
  privileges : p.uid = 0 → ∀ uid, calls.nobody = some uid → r.uid = uid

theorem processWorker_cases {inFd outFd : Nat}
    (h : processWorker calls inFd outFd p = (true, q)) :
    ∃ r, Prepared calls p r ∧ closeAllv calls [inFd, outFd] r = (true, q) := by
  obtain ⟨p₀, hnull₀, h₀⟩ := orFail_cases h
  obtain ⟨p₁, hnull₁, h₁⟩ := orFail_cases h₀
  obtain ⟨p₂, hnull₂, h₂⟩ := orFail_cases h₁
  obtain ⟨p₃, hchdir, h₃⟩ := orFail_cases h₂
  obtain ⟨p₄, hdrop, h₄⟩ := orFail_cases h₃
  obtain ⟨p₅, hreset, h₅⟩ := orFail_cases h₄
  obtain ⟨r, hignore, hclose⟩ := orFail_cases h₅
  obtain rfl := openNull_cases hnull₀
  obtain rfl := openNull_cases hnull₁
  obtain rfl := openNull_cases hnull₂
  obtain rfl := (Prod.mk.inj hchdir).2
  obtain ⟨hdropped, huid⟩ := dropPrivileges_cases hdrop
  obtain ⟨hfiles, hlimit, huid', hhandlers⟩ := resetSignals_handlers hreset
  obtain ⟨hfiles', hlimit', huid'', hhandlers'⟩ := ignoreSigsv_handlers hignore
  refine ⟨r, ⟨?_, ?_, fun n hn => ?_, fun sig hsig => ?_, ?_, fun hzero uid hnobody => ?_⟩,
    hclose⟩
  · rw [hlimit', hlimit, hdropped]
    rfl
  · rw [hfiles', hfiles, hdropped]
    exact ⟨rfl, rfl, rfl⟩
  · rw [hfiles', hfiles, hdropped]
    simp only [Process.install_files, Process.close_files]
    rw [Function.update_of_ne (by omega), Function.update_of_ne (by omega),
      Function.update_of_ne (by omega), Function.update_of_ne (by omega),
      Function.update_of_ne (by omega), Function.update_of_ne (by omega)]
  · rw [hhandlers', if_pos hsig]
  · intro sig hpos hlt hout hkill hstop hok
    rw [hhandlers', if_neg hout, hhandlers, if_pos]
    refine ⟨List.mem_range'_1.mpr (by omega), ?_, hok⟩
    rintro (heq | heq | hmem)
    · exact hkill heq
    · exact hstop heq
    · exact hout hmem
  · rw [huid'', huid']
    exact huid hzero uid hnobody

/-- With the directory, nothing is left open but what is excepted. -/
theorem closeAllv_opendir {exceptFds : List Nat} (h : closeAllv calls exceptFds p = (true, q))
    (hopendir : calls.opendir = true) {m : Nat} (hfree : p.files m = none) (hroom : m < p.limit)
    (hreaddir : ∀ n, 3 ≤ n → n ∉ exceptFds → (p.files n).isSome = true →
      Decimal.text n ∈ calls.readdir ∧ n < 2147483648) :
    q.handlers = p.handlers ∧ q.uid = p.uid ∧
      (∀ n, (p.files n).isSome = true → n < 3 ∨ n ∈ exceptFds → q.files n = p.files n) ∧
      ∀ n, 3 ≤ n → n ∉ exceptFds → q.files n = none := by
  obtain ⟨dirfd, r, hopen⟩ := Process.openFd_isSome .procSelfFd hfree hroom
  obtain ⟨hdirfd, -, -, rfl⟩ := Process.openFd_cases hopen
  rw [closeAllv, if_pos hopendir, hopen] at h
  obtain ⟨⟨ok, r⟩, hloop⟩ : ∃ res, closeEntries calls exceptFds dirfd calls.readdir
      (p.install dirfd .procSelfFd) = res := ⟨_, rfl⟩
  simp only [hloop, Prod.mk.injEq] at h
  obtain ⟨rfl, rfl⟩ := h
  obtain ⟨-, hhandlers, huid, hfiles⟩ := closeEntries_keeps hloop
  refine ⟨hhandlers, huid, fun n hn hkeep => ?_, fun n hthree hexcept => ?_⟩
  · have hne : n ≠ dirfd := fun heq => by rw [heq, hdirfd] at hn; cases hn
    rw [Process.close_files, Function.update_of_ne hne]
    rcases hfiles n with hsame | ⟨⟨hge, -, hout⟩, -⟩
    · rw [hsame, Process.install_files, Function.update_of_ne hne]
    · rcases hkeep with hlt | hmem
      · omega
      · exact absurd hmem hout
  · rw [Process.close_files]
    by_cases hne : n = dirfd
    · rw [hne, Function.update_self]
    · rw [Function.update_of_ne hne]
      cases hn : p.files n with
      | none =>
          rcases hfiles n with hsame | ⟨-, hnone⟩
          · rw [hsame, Process.install_files, Function.update_of_ne hne, hn]
          · exact hnone
      | some f =>
          obtain ⟨hname, hint⟩ := hreaddir n hthree hexcept (by rw [hn]; rfl)
          exact closeEntries_closes hloop hname hint ⟨hthree, hne, hexcept⟩

/-- Without it, everything is closed from 4 to the limit. -/
theorem closeAllv_numbers {exceptFds : List Nat} {rlimMax : UInt64}
    (h : closeAllv calls exceptFds p = (true, q)) (hopendir : calls.opendir = false)
    (hrlim : calls.rlimMax = some rlimMax) (hthree : 3 < n) (hn : n < rlimInt rlimMax) :
    q.files n = none := by
  rw [closeAllv, if_neg (by rw [hopendir]; simp), hrlim] at h
  rw [(closeNumbers_files h).2.2, if_pos ⟨hthree, List.mem_range.mpr hn⟩]

/-! ## The sockets of a context -/

theorem Process.socketpair_cases {id a b : Nat} (h : p.socketpair id = some (a, b, q)) :
    a < b ∧ b < p.limit ∧ p.files a = none ∧ p.files b = none ∧
      (∀ m, p.files m = none → a ≤ m) ∧
      q = (p.install a (.socket id)).install b (.socket (id + 1)) := by
  unfold socketpair at h
  split at h
  · cases h
  · next a r hopen =>
      obtain ⟨hfree, hlt, hlower, rfl⟩ := Process.openFd_cases hopen
      simp only [Option.map_eq_some_iff, Prod.mk.injEq] at h
      obtain ⟨⟨x, y⟩, hopen', rfl, rfl, rfl⟩ := h
      obtain ⟨hfree', hlt', -, rfl⟩ := Process.openFd_cases hopen'
      have hlowest : ∀ m, p.files m = none → a ≤ m := by
        intro m hm
        by_contra hlt
        have hbusy := hlower m (by omega)
        rw [hm] at hbusy
        cases hbusy
      have hne : x ≠ a := fun heq => by simp [heq] at hfree'
      rw [Process.install_files, Function.update_of_ne hne] at hfree'
      have hle := hlowest x hfree'
      exact ⟨by omega, hlt', hfree, hfree', hlowest, rfl⟩

/-- The four sockets of a context are four numbers, the first of them the lowest
that was free. -/
theorem messageFds_cases {fds : MessageFds} (h : messageFds p = some (fds, q)) :
    fds.requestRecv < fds.requestSend ∧ fds.requestRecv < fds.responseRecv ∧
      fds.responseRecv < fds.responseSend ∧ fds.requestSend ≠ fds.responseRecv ∧
      fds.requestSend ≠ fds.responseSend ∧ fds.requestSend < p.limit ∧
      q = (((p.install fds.requestRecv (.socket 0)).install fds.requestSend (.socket 1)).install
        fds.responseRecv (.socket 2)).install fds.responseSend (.socket 3) := by
  unfold messageFds at h
  split at h
  · cases h
  · next a b r hpair =>
      obtain ⟨hab, hb, -, -, hlowest, rfl⟩ := Process.socketpair_cases hpair
      simp only [Option.map_eq_some_iff, Prod.mk.injEq] at h
      obtain ⟨⟨c, d, y⟩, hpair', rfl, rfl⟩ := h
      obtain ⟨hcd, -, hc, hd, -, rfl⟩ := Process.socketpair_cases hpair'
      have hother : ∀ m, ((p.install a (.socket 0)).install b (.socket (0 + 1))).files m = none →
          m ≠ a ∧ m ≠ b ∧ p.files m = none := by
        intro m hm
        simp only [Process.install_files, Function.update_apply] at hm
        split at hm
        · cases hm
        · next hmb =>
            split at hm
            · cases hm
            · next hma => exact ⟨hma, hmb, hm⟩
      obtain ⟨hca, hcb, hcfree⟩ := hother c hc
      obtain ⟨-, hdb, -⟩ := hother d hd
      have hac : a < c := Nat.lt_of_le_of_ne (hlowest c hcfree) (Ne.symm hca)
      exact ⟨hab, hac, hcd, Ne.symm hcb, Ne.symm hdb, hb, rfl⟩

/-! ## A worker that reaches its loop -/

/-- What a worker has that started with `/proc/self/fd`. -/
structure Isolated (calls : SystemCalls) (fds : MessageFds) (client worker : Process) : Prop where
  null : worker.files 0 = some (.devNull false) ∧ worker.files 1 = some (.devNull true) ∧
    worker.files 2 = some (.devNull true)
  requests : worker.files fds.requestRecv = some (.socket 0)
  responses : worker.files fds.responseSend = some (.socket 3)
  others : ∀ n, 3 ≤ n → n ≠ fds.requestRecv → n ≠ fds.responseSend → worker.files n = none
  ignored : ∀ sig ∈ ignoreSigs, worker.handlers sig = .ign
  default : ∀ sig, 1 ≤ sig → sig < nsig → sig ∉ ignoreSigs → sig ≠ sigkill → sig ≠ sigstop →
    calls.sigaction sig = none → worker.handlers sig = .dfl
  privileges : client.uid = 0 → ∀ uid, calls.nobody = some uid → worker.uid = uid

/-- What the child has open when it calls `process_worker`. -/
def childFiles (fds : MessageFds) (client : Process) : Nat → Option File :=
  ((client.close fds.requestSend).close fds.responseRecv).files

/-- Whatever the client has open, whatever its signals do and whoever it runs as, a
worker that reaches its loop has `/dev/null` and its two sockets, and
nothing else. -/
theorem worker_isolated {client client' worker : Process} {fds : MessageFds}
    (hfds : messageFds client = some (fds, client'))
    (hstart : startWorker calls fds client' = some (true, worker))
    (hopendir : calls.opendir = true)
    (hreaddir : ∀ n, 3 ≤ n → (childFiles fds client' n).isSome = true →
      Decimal.text n ∈ calls.readdir ∧ n < 2147483648) :
    Isolated calls fds client worker := by
  obtain ⟨hab, hac, hcd, hbc, hbd, hlimit, rfl⟩ := messageFds_cases hfds
  simp only [startWorker, Option.ite_none_left_eq_some, Option.some.injEq, not_or] at hstart
  obtain ⟨⟨hin, hout⟩, hstart⟩ := hstart
  obtain ⟨r, hprepared, hclose⟩ := processWorker_cases hstart
  have hfree : r.files fds.requestSend = none := by
    rw [hprepared.files _ (by omega)]
    simp [Function.update_of_ne hbc]
  have hrecv : r.files fds.requestRecv = some (.socket 0) := by
    rw [hprepared.files _ (by omega)]
    simp [Function.update_of_ne (show fds.requestRecv ≠ fds.responseRecv by omega),
      Function.update_of_ne (show fds.requestRecv ≠ fds.requestSend by omega),
      Function.update_of_ne (show fds.requestRecv ≠ fds.responseSend by omega)]
  have hsend : r.files fds.responseSend = some (.socket 3) := by
    rw [hprepared.files _ (by omega)]
    simp [Function.update_of_ne (show fds.responseSend ≠ fds.responseRecv by omega),
      Function.update_of_ne (show fds.responseSend ≠ fds.requestSend by omega)]
  obtain ⟨hnull₀, hnull₁, hnull₂⟩ := hprepared.null
  obtain ⟨hhandlers, huid, hkept, hclosed⟩ := closeAllv_opendir hclose hopendir hfree
    (by rw [hprepared.limit]; exact hlimit) fun n hn _ hopen =>
      hreaddir n hn (by rw [childFiles, ← hprepared.files n hn]; exact hopen)
  have hlow : ∀ n f, r.files n = some f → n < 3 → worker.files n = some f := by
    intro n f hn hlt
    rw [hkept n (by rw [hn]; rfl) (Or.inl hlt), hn]
  refine ⟨⟨hlow 0 _ hnull₀ (by omega), hlow 1 _ hnull₁ (by omega), hlow 2 _ hnull₂ (by omega)⟩,
    ?_, ?_, fun n hn hrecv hsend => hclosed n hn (by simp [hrecv, hsend]), ?_, ?_, ?_⟩
  · rw [hkept _ (by rw [hrecv]; rfl) (Or.inr (by simp)), hrecv]
  · rw [hkept _ (by rw [hsend]; rfl) (Or.inr (by simp)), hsend]
  · rw [hhandlers]
    exact hprepared.ignored
  · rw [hhandlers]
    exact hprepared.default
  · rw [huid]
    exact hprepared.privileges

/-- A client of `root` that handles its signals itself. -/
def rootClient : Process where
  files n := if n < 4 then some (.other n) else none
  limit := 16
  handlers _ := .function 7
  uid := 0

/-- The directory as its worker reads it: two entries that are no numbers, what is
open, and the directory. -/
def rootCalls : SystemCalls where
  nobody := some 65534
  sigaction sig := if sig = 32 ∨ sig = 33 then some .einval else none
  readdir := [[46], [46, 46]] ++ [0, 1, 2, 3, 4, 5, 7].map Decimal.text

theorem worker_isolated_rootClient : ∃ fds client' worker,
    messageFds rootClient = some (fds, client') ∧
      startWorker rootCalls fds client' = some (true, worker) ∧
      Isolated rootCalls fds rootClient worker := by
  have hfds : messageFds rootClient = some (⟨4, 5, 6, 7⟩,
      (((rootClient.install 4 (.socket 0)).install 5 (.socket 1)).install 6 (.socket 2)).install 7
        (.socket 3)) := rfl
  have hstarts : (startWorker rootCalls ⟨4, 5, 6, 7⟩
      ((((rootClient.install 4 (.socket 0)).install 5 (.socket 1)).install 6 (.socket 2)).install 7
        (.socket 3))).map (·.1) = some true := by decide +kernel
  obtain ⟨⟨ok, worker⟩, hstart, rfl⟩ := Option.map_eq_some_iff.mp hstarts
  refine ⟨_, _, worker, hfds, hstart, worker_isolated hfds hstart rfl fun n hn hopen => ?_⟩
  have hcases : n = 3 ∨ n = 4 ∨ n = 7 := by
    simp only [childFiles, Process.close_files, Process.install_files, Function.update_apply,
      rootClient] at hopen
    split_ifs at hopen
    all_goals simp_all
    omega
  rcases hcases with rfl | rfl | rfl <;> exact ⟨by decide +kernel, by omega⟩

end LmTransport.Ref.Libasyncns
