import Columnar.Proofs.Mutation.Completion
import Mathlib.Data.Nat.Find

/-!
# How a wait ends

A wait for a mutation that has a name asks for its status, pauses, and asks again. Whatever rows the
client answers, the wait ends once the pauses have used up the time allowed, and its verdict is that
of the last answer: all earlier ones left it undecided (`wait_ends`). It ends so with any number of
rounds that brings it to this answer, so that counting the rounds plays no part in it.
-/

namespace Columnar

/-- A comparison with an integer fails for decimals of the signalling kind alone. -/
theorem Value.same_int (v : Value) (n : Int) :
    v.same (.int n) = if v.isSignal then .error .nanComparison else .ok (v.equals (.int n)) := by
  have hsignals : signals v (.int n) = v.isSignal := by
    cases v <;> simp [signals, isSignal, isNumeric]
  rw [same, hsignals]

namespace Mutation

variable {σ : Type}

/-! ### What rows say of a mutation -/

/-- Rows that give a reason why a mutation failed. -/
def SaysFailed (rows : List Row) (reason : Value) : Prop :=
  ∃ row ∈ rows.head?, (Value.get "latest_fail_reason" row).isTruthy = true ∧
    Value.get "latest_fail_reason" row = reason

/-- Rows that leave open whether a mutation is done: there is one, without a reason of failure and
not done. -/
def SaysOpen (rows : List Row) : Prop :=
  ∃ row ∈ rows.head?, (Value.get "latest_fail_reason" row).isTruthy = false ∧
    (Value.get "is_done" row).isSignal = false ∧
    (Value.get "is_done" row).equals (.int 1) = false

/-- Rows whose word on being done cannot be compared with a number. -/
def SaysSignal (rows : List Row) : Prop :=
  ∃ row ∈ rows.head?, (Value.get "latest_fail_reason" row).isTruthy = false ∧
    (Value.get "is_done" row).isSignal = true

theorem ofRows_cons (row : Row) (rows : List Row) : Verdict.ofRows (row :: rows) =
    if (Value.get "latest_fail_reason" row).isTruthy then
      .ok (.failed (Value.get "latest_fail_reason" row))
    else if (Value.get "is_done" row).isSignal then .error .nanComparison
    else if (Value.get "is_done" row).equals (.int 1) then .ok .done
    else .ok .undecided := by
  have hsame := (Value.get "is_done" row).same_int 1
  dsimp only [Verdict.ofRows]
  by_cases hreason : (Value.get "latest_fail_reason" row).isTruthy
  · rw [if_pos hreason, if_pos hreason]
    rfl
  · rw [if_neg hreason, if_neg hreason, hsame]
    by_cases hsignal : (Value.get "is_done" row).isSignal
    · rw [if_pos hsignal, if_pos hsignal]
      rfl
    · rw [if_neg hsignal, if_neg hsignal]
      cases (Value.get "is_done" row).equals (.int 1) <;> rfl

theorem ofRows_eq_done_iff (rows : List Row) :
    Verdict.ofRows rows = .ok .done ↔ SaysDone rows := by
  refine ⟨saysDone_of_ofRows, fun h ↦ ?_⟩
  cases rows with
  | nil => rfl
  | cons row rows =>
    obtain ⟨hreason, hsame⟩ := h row rfl
    dsimp only [Verdict.ofRows]
    rw [if_neg (Bool.eq_false_iff.mp hreason), hsame]
    rfl

theorem ofRows_eq_failed_iff (rows : List Row) (reason : Value) :
    Verdict.ofRows rows = .ok (.failed reason) ↔ SaysFailed rows reason := by
  cases rows with
  | nil => simp [Verdict.ofRows, SaysFailed]
  | cons row rows =>
    rw [ofRows_cons, SaysFailed]
    split_ifs <;> simp_all

theorem ofRows_eq_undecided_iff (rows : List Row) :
    Verdict.ofRows rows = .ok .undecided ↔ SaysOpen rows := by
  cases rows with
  | nil => simp [Verdict.ofRows, SaysOpen]
  | cons row rows =>
    rw [ofRows_cons, SaysOpen]
    split_ifs <;> simp_all

theorem ofRows_eq_error_iff (rows : List Row) (e : Failure) :
    Verdict.ofRows rows = .error e ↔ SaysSignal rows ∧ e = .nanComparison := by
  cases rows with
  | nil => simp [Verdict.ofRows, SaysSignal]
  | cons row rows =>
    rw [ofRows_cons, SaysSignal, @eq_comm _ e]
    split_ifs <;> simp_all

/-! ### The course of a wait -/

variable (client : Client σ) (m : Mutation) (interval : Int) (s : σ)

/-- The client before each status query of a wait that never ends, with its number counted from
zero: a pause follows each query. -/
def before : Nat → σ
  | 0 => s
  | i + 1 => client.sleep interval
      (client.query statusSql [("table", .text m.table), ("mid", m.id)] (before i)).2

/-- The client after a status query. -/
def after (i : Nat) : σ :=
  (client.query statusSql [("table", .text m.table), ("mid", m.id)]
    (before client m interval s i)).2

/-- A client that answers every status query, with a clock that never goes back and goes on by at
least the interval in each pause. -/
structure Answers (answers : Nat → List Row) : Prop where
  answer_eq : ∀ i, (client.query statusSql [("table", .text m.table), ("mid", m.id)]
    (before client m interval s i)).1 = .ok (answers i)
  now_query : ∀ i, client.now (before client m interval s i) ≤
    client.now (after client m interval s i)
  now_sleep : ∀ i, client.now (after client m interval s i) + interval ≤
    client.now (before client m interval s (i + 1))

variable {client m interval s} {answers : Nat → List Row} {limit start : Int}

/-- After so many pauses so many intervals have passed. -/
theorem Answers.elapsed (h : Answers client m interval s answers) (i : Nat) :
    client.now s + i * interval ≤ client.now (after client m interval s i) := by
  induction i with
  | zero =>
    have hquery := h.now_query 0
    rw [before] at hquery
    simpa using hquery
  | succ i ih =>
    have hquery := h.now_query (i + 1)
    have hsleep := h.now_sleep i
    rw [Int.natCast_succ, Int.add_mul, Int.one_mul]
    omega

/-- A status answer after which the wait goes on. -/
def Passes (client : Client σ) (m : Mutation) (interval limit start : Int) (s : σ)
    (answers : Nat → List Row) (i : Nat) : Prop :=
  SaysOpen (answers i) ∧ client.now (after client m interval s i) - start ≤ limit

/-- What a wait answers that ends with a verdict: without one the time is up. -/
def ending (m : Mutation) (limit : Int) : Except Failure Verdict → Except Failure Unit
  | .error e => .error e
  | .ok .done => .ok ()
  | .ok (.failed reason) => .error (.mutationFailed m.id reason)
  | .ok .undecided => .error (.waitTimeout m.id limit)

namespace Answers

theorem query_before (h : Answers client m interval s answers) (i : Nat) :
    client.query statusSql [("table", .text m.table), ("mid", m.id)]
      (before client m interval s i) = (.ok (answers i), after client m interval s i) :=
  Prod.ext (h.answer_eq i) rfl

/-- A round of the loop that passes is followed by the next one. -/
theorem poll_of_passes (h : Answers client m interval s answers) {i : Nat}
    (hpass : Passes client m interval limit start s answers i) (polls : Nat) :
    (poll client m interval limit start (polls + 1)).outcome (before client m interval s i) =
      (poll client m interval limit start polls).outcome (before client m interval s (i + 1)) := by
  have hverdict := (ofRows_eq_undecided_iff (answers i)).mpr hpass.1
  have htime : ¬ limit < client.now (after client m interval s i) - start :=
    Int.not_lt.mpr hpass.2
  rw [outcome_poll, h.query_before]
  simp only [hverdict, if_neg htime]
  rfl

/-- A round of the loop that does not pass ends it with the verdict of its answer. -/
theorem poll_of_not_passes (h : Answers client m interval s answers) {i : Nat}
    (hstop : ¬ Passes client m interval limit start s answers i) (polls : Nat) :
    (poll client m interval limit start (polls + 1)).outcome (before client m interval s i) =
      (ending m limit (Verdict.ofRows (answers i)), after client m interval s i) := by
  rw [outcome_poll, h.query_before]
  rcases hverdict : Verdict.ofRows (answers i) with e | ⟨⟩ | reason | ⟨⟩
  · simp only [hverdict, ending]
  · simp only [hverdict, ending]
  · simp only [hverdict, ending]
  · have hopen := (ofRows_eq_undecided_iff (answers i)).mp hverdict
    have htime : limit < client.now (after client m interval s i) - start :=
      Int.not_le.mp fun hle ↦ hstop ⟨hopen, hle⟩
    simp only [hverdict, if_pos htime, ending]

/-- Rounds that pass bring the loop to the next status query. -/
theorem poll_skip (h : Answers client m interval s answers) {n : Nat}
    (hpass : ∀ i < n, Passes client m interval limit start s answers i) (polls : Nat) :
    (poll client m interval limit start (n + polls)).outcome s =
      (poll client m interval limit start polls).outcome (before client m interval s n) := by
  induction n generalizing polls with
  | zero =>
    rw [Nat.zero_add]
    rfl
  | succ n ih =>
    have hrounds : n + 1 + polls = n + (polls + 1) := by omega
    rw [hrounds, ih (fun i hi ↦ hpass i (by omega)) (polls + 1)]
    exact h.poll_of_passes (hpass n (by omega)) polls

/-- The loop ends with the first answer that does not pass, however many rounds it may make. -/
theorem poll_of_first (h : Answers client m interval s answers) {n : Nat}
    (hpass : ∀ i < n, Passes client m interval limit start s answers i)
    (hstop : ¬ Passes client m interval limit start s answers n) {polls : Nat}
    (hpolls : n < polls) :
    (poll client m interval limit start polls).outcome s =
      (ending m limit (Verdict.ofRows (answers n)), after client m interval s n) := by
  obtain ⟨more, rfl⟩ : ∃ more, polls = n + (more + 1) := ⟨polls - n - 1, by omega⟩
  rw [h.poll_skip hpass, h.poll_of_not_passes hstop]

/-- A wait for a mutation that was accepted under a name ends with the first answer that does not
pass, however many rounds it may make. -/
theorem wait_of_first (h : Answers client m interval s answers) (haccepted : m.accepted = true)
    (hid : m.id.isNull = false) {n : Nat}
    (hpass : ∀ i < n, Passes client m interval limit (client.now s) s answers i)
    (hstop : ¬ Passes client m interval limit (client.now s) s answers n) {rounds : Nat}
    (hrounds : n < rounds) :
    (wait client interval limit rounds).outcome (m, s) =
      (ending m limit (Verdict.ofRows (answers n)), m, after client m interval s n) := by
  rw [outcome_wait, if_pos haccepted]
  simp only [awaited, hid, h.poll_of_first hpass hstop hrounds]
  rfl

/-- Some answer does not pass, at the latest the one after the pauses that fit into the time. -/
theorem exists_first (h : Answers client m interval s answers) (hinterval : 0 < interval)
    (hlimit : 0 ≤ limit) : ∃ n : Nat, (n : Int) ≤ limit / interval + 1 ∧
      (∀ i < n, Passes client m interval limit (client.now s) s answers i) ∧
      ¬ Passes client m interval limit (client.now s) s answers n := by
  classical
  obtain ⟨fits, hfits⟩ := Int.eq_ofNat_of_zero_le (Int.ediv_nonneg hlimit (Int.le_of_lt hinterval))
  have hstop : ¬ Passes client m interval limit (client.now s) s answers (fits + 1) := by
    intro hpass
    have hover := Int.lt_ediv_add_one_mul_self limit hinterval
    have helapsed := h.elapsed (fits + 1)
    have htime := hpass.2
    rw [hfits] at hover
    rw [Int.natCast_succ] at helapsed
    omega
  have hexists : ∃ n, ¬ Passes client m interval limit (client.now s) s answers n :=
    ⟨fits + 1, hstop⟩
  refine ⟨Nat.find hexists, ?_, ?_, Nat.find_spec hexists⟩
  · have hle := Nat.find_min' hexists hstop
    omega
  · intro i hi
    exact not_not.mp (Nat.find_min hexists hi)

end Answers

/-! ### Watched -/

/-- The status queries of a wait with their answers, up to one with a number. -/
def asked (m : Mutation) (answers : Nat → List Row) (n : Nat) : List Exchange :=
  (List.range n).map fun i ↦ status m.table m.id (.ok (answers i))

theorem asked_succ (m : Mutation) (answers : Nat → List Row) (n : Nat) :
    asked m answers (n + 1) = asked m answers n ++ [status m.table m.id (.ok (answers n))] := by
  rw [asked, List.range_succ, List.map_append]
  rfl

theorem Answers.before_watched (h : Answers client m interval s answers) (i : Nat) :
    before client.watched m interval ([], s) i =
      (asked m answers i, before client m interval s i) := by
  induction i with
  | zero => rfl
  | succ i ih =>
    rw [before, ih, Client.watched_query, Client.watched_sleep, h.query_before, asked_succ]
    rfl

theorem Answers.after_watched (h : Answers client m interval s answers) (i : Nat) :
    after client.watched m interval ([], s) i =
      (asked m answers (i + 1), after client m interval s i) := by
  rw [after, h.before_watched, Client.watched_query, h.query_before, asked_succ]

/-- A client that is watched answers as well, on the same clock. -/
theorem Answers.watched (h : Answers client m interval s answers) :
    Answers client.watched m interval ([], s) answers where
  answer_eq i := by
    rw [h.before_watched, Client.watched_query]
    exact h.answer_eq i
  now_query i := by
    rw [h.before_watched, h.after_watched]
    exact h.now_query i
  now_sleep i := by
    rw [h.before_watched, h.after_watched]
    exact h.now_sleep i

/-! ### Verdicts -/

/-- How a wait ends tells what the rows said. -/
theorem ending_ofRows (m : Mutation) (limit : Int) (rows : List Row) :
    (ending m limit (Verdict.ofRows rows) = .ok () ↔ SaysDone rows) ∧
    (∀ reason, ending m limit (Verdict.ofRows rows) = .error (.mutationFailed m.id reason) ↔
      SaysFailed rows reason) ∧
    (ending m limit (Verdict.ofRows rows) = .error (.waitTimeout m.id limit) ↔ SaysOpen rows) ∧
    (ending m limit (Verdict.ofRows rows) = .error .nanComparison ↔ SaysSignal rows) := by
  have hsignal : SaysSignal rows ↔ Verdict.ofRows rows = .error .nanComparison := by
    simp [ofRows_eq_error_iff]
  simp only [← ofRows_eq_done_iff, ← ofRows_eq_failed_iff, ← ofRows_eq_undecided_iff, hsignal]
  rcases hverdict : Verdict.ofRows rows with e | ⟨⟩ | reason | ⟨⟩
  · obtain ⟨-, rfl⟩ := (ofRows_eq_error_iff rows e).mp hverdict
    simp [ending]
  · simp [ending]
  · simp [ending]
  · simp [ending]

/-- A wait for a mutation that was accepted under a name ends, whatever rows the client answers, and
asks for the status at most twice more than pauses fit into the time. All answers but the last left
it undecided in time. The wait returns when the last one says that the mutation is done, fails with
the reason that it gives, and is out of time when the last one leaves it undecided too, more than
the time allowed after the first question; only when that answer's word on being done cannot be
compared with a number does the comparison fail instead. With any number of rounds that brings it to
that answer the wait is the same. -/
theorem wait_ends (client : Client σ) (m : Mutation) (interval limit : Int) (s : σ)
    (answers : Nat → List Row) (haccepted : m.accepted = true) (hid : m.id.isNull = false)
    (hinterval : 0 < interval) (hlimit : 0 ≤ limit) (h : Answers client m interval s answers) :
    ∃ (n : Nat) (answer : Except Failure Unit),
      (n : Int) + 1 ≤ limit / interval + 2 ∧
      (∀ i < n, SaysOpen (answers i) ∧
        client.now (after client m interval s i) - client.now s ≤ limit) ∧
      (wait client interval limit).outcome (m, s) = (answer, m, after client m interval s n) ∧
      (wait client.watched interval limit).outcome (m, [], s) =
        (answer, m, asked m answers (n + 1), after client m interval s n) ∧
      (answer = .ok () ↔ SaysDone (answers n)) ∧
      (∀ reason, answer = .error (.mutationFailed m.id reason) ↔ SaysFailed (answers n) reason) ∧
      (answer = .error (.waitTimeout m.id limit) ↔ SaysOpen (answers n)) ∧
      (SaysOpen (answers n) →
        limit < client.now (after client m interval s n) - client.now s) ∧
      (answer = .error .nanComparison ↔ SaysSignal (answers n)) ∧
      ∀ rounds, n < rounds →
        (poll client m interval limit (client.now s) rounds).outcome s =
          (answer, after client m interval s n) ∧
        (wait client interval limit rounds).outcome (m, s) =
          (answer, m, after client m interval s n) ∧
        (wait client.watched interval limit rounds).outcome (m, [], s) =
          (answer, m, asked m answers (n + 1), after client m interval s n) := by
  obtain ⟨n, hn, hpass, hstop⟩ := h.exists_first hinterval hlimit
  have hbudget : n < pollLimit interval limit := by
    rw [pollLimit, if_pos hinterval]
    omega
  have hwait {rounds : Nat} (hrounds : n < rounds) :=
    h.wait_of_first haccepted hid hpass hstop hrounds
  have hwatched {rounds : Nat} (hrounds : n < rounds) :
      (wait client.watched interval limit rounds).outcome (m, [], s) =
        (ending m limit (Verdict.ofRows (answers n)), m, asked m answers (n + 1),
          after client m interval s n) := by
    have hpasses (i : Nat) : Passes client.watched m interval limit
        (client.watched.now ([], s)) ([], s) answers i ↔
          Passes client m interval limit (client.now s) s answers i := by
      rw [Passes, h.after_watched]
      rfl
    rw [h.watched.wait_of_first haccepted hid (fun i hi ↦ (hpasses i).mpr (hpass i hi))
      (mt (hpasses n).mp hstop) hrounds, h.after_watched]
  obtain ⟨hdone, hfailed, hopen, hsignal⟩ := ending_ofRows m limit (answers n)
  refine ⟨n, ending m limit (Verdict.ofRows (answers n)), by omega, hpass, hwait hbudget,
    hwatched hbudget, hdone, hfailed, hopen, fun hlast ↦ ?_, hsignal, fun rounds hrounds ↦ ?_⟩
  · by_contra htime
    exact hstop ⟨hlast, Int.not_lt.mp htime⟩
  · exact ⟨h.poll_of_first hpass hstop hrounds, hwait hrounds, hwatched hrounds⟩

/-- A client whose state is its clock; the rows it answers depend on the time alone. -/
private def timed (rows : Int → List Row) : Client Int where
  query _ _ now := (.ok (rows now), now)
  command _ _ now := (.ok (), now)
  now now := now
  sleep pause now := now + pause

private theorem before_timed (rows : Int → List Row) (m : Mutation) (interval start : Int)
    (i : Nat) : before (timed rows) m interval start i = start + i * interval := by
  induction i with
  | zero => simp [before]
  | succ i ih =>
    rw [before, ih, Int.natCast_succ, Int.add_mul, Int.one_mul, ← Int.add_assoc]
    rfl

private theorem answers_timed (rows : Int → List Row) (m : Mutation) (interval start : Int) :
    Answers (timed rows) m interval start fun i ↦ rows (start + i * interval) where
  answer_eq i := by
    rw [before_timed]
    rfl
  now_query _ := Int.le_refl _
  now_sleep _ := Int.le_refl _

private def purge : Mutation where
  sql := "ALTER TABLE `visits` DELETE WHERE `id` = 7"
  params := []
  table := "visits"
  accepted := true
  id := .text "m1"

/-- The one row of a status without a reason of failure. -/
private def statusRows (done : Value) : List Row :=
  [[(.text "is_done", done), (.text "latest_fail_reason", .text "")]]

/-- Rows of a mutation that is done after a second. -/
private def inASecond (now : Int) : List Row := statusRows (.int (if now < 1000 then 0 else 1))

/-- A mutation that is done after a second is waited for until then. -/
theorem wait_ends_inASecond : purge.accepted = true ∧ purge.id.isNull = false ∧ (0 : Int) < 500 ∧
    (0 : Int) ≤ 60000 ∧
    Answers (timed inASecond) purge 500 0 (fun i ↦ inASecond (0 + i * 500)) ∧
    ∃ n : Nat, (n : Int) + 1 ≤ 122 ∧ (∀ i < n, SaysOpen (inASecond (0 + i * 500))) ∧
      SaysDone (inASecond (0 + n * 500)) ∧
      (wait (timed inASecond) 500 60000).outcome (purge, 0) = (.ok (), purge, 1000) := by
  have hanswers := answers_timed inASecond purge 500 0
  obtain ⟨n, answer, hn, hpass, houtcome, -, hdone, -⟩ :=
    wait_ends _ purge 500 60000 0 _ rfl rfl (by decide) (by decide) hanswers
  have hwait : (wait (timed inASecond) 500 60000).outcome (purge, 0) = (.ok (), purge, 1000) := by
    rfl
  have hanswer : answer = .ok () := congrArg Prod.fst (houtcome.symm.trans hwait)
  exact ⟨rfl, rfl, by decide, by decide, hanswers, n, hn, fun i hi ↦ (hpass i hi).1,
    hdone.mp hanswer, hwait⟩

/-- An answer that gives no reason of failure and does not say that the mutation is done may end a
wait before its time is up: its word on being done is a decimal of the signalling kind. -/
theorem wait_ends_signal :
    let rows := statusRows (.decimal (.nan false true 0))
    purge.accepted = true ∧ purge.id.isNull = false ∧
    Answers (timed fun _ ↦ rows) purge 500 0 (fun _ ↦ rows) ∧
    (∃ row ∈ rows.head?, (Value.get "latest_fail_reason" row).isTruthy = false ∧
      (Value.get "is_done" row).equals (.int 1) = false) ∧
    (wait (timed fun _ ↦ rows) 500 1000).outcome (purge, 0) = (.error .nanComparison, purge, 0) ∧
    ((wait (timed fun _ ↦ rows) 500 1000).outcome (purge, 0)).1 ≠
      .error (.waitTimeout purge.id 1000) := by
  refine ⟨rfl, rfl, answers_timed _ purge 500 0, ⟨_, rfl, rfl, rfl⟩, rfl, ?_⟩
  intro h
  cases h

end Mutation

end Columnar
