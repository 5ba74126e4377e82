import LeibnizSieve.Proofs.Report.Delivery
import LeibnizSieve.Sieve.Run

/-! What a run of the sieve says, and where. Main statement: the exit status and what is offered to
the output stream come from the limit, the memory and the policy alone; the error stream gets the
complaint and the report in this order, as far as it takes them. -/

namespace LeibnizSieve.Sieve

open Text Console Files Log Report

theorem reserve_refused {capacity : Nat} {limit : UInt64}
    (h : min capacity (2 ^ 64 - 1) < limit.toNat + 1) :
    ∃ e, reserve capacity limit = .error e ∧ e.message =
      "failed to allocate presence array of " ++ toString (min (limit.toNat + 1) (2 ^ 64 - 1)) ++
        " slots" := by
  have hl := limit.toNat_lt
  by_cases hw : limit.toNat + 1 = 2 ^ 64
  · refine ⟨.allocation limit, by rw [reserve, if_pos hw], ?_⟩
    have hmin : min (limit.toNat + 1) (2 ^ 64 - 1) = limit.toNat := by omega
    rw [hmin]
    rfl
  · have hc : ¬ limit.toNat + 1 ≤ capacity := by omega
    refine ⟨.allocation (limit + 1), by rw [reserve, if_neg hw, if_neg hc], ?_⟩
    have hword : limit.toNat + 1 < 2 ^ 64 := by omega
    have hsum : (limit + 1).toNat = limit.toNat + 1 := toNat_add_of_lt (b := 1) hword
    have hmin : min (limit.toNat + 1) (2 ^ 64 - 1) = (limit + 1).toNat := by omega
    rw [hmin]
    rfl

def complaint (policy : Policy) (e : SieveError) : String :=
  match policy with
  | .report => "Error: " ++ e.message ++ "\n"
  | .silent => ""

theorem conclude_done {capacity : Nat} {limit : UInt64} {table : PrimeTable}
    (h : sieve capacity limit = .ok table) (policy : Policy) (s : Session) :
    conclude capacity limit policy s = {
      session := (s.complain (s.heard (sieving limit) ++ s.heard (sieved limit))).print
        "End Program\n"
      rendering := some fun elapsed =>
        ReportData.rendering ⟨limit, .done, some (UInt64.ofNat table.count), elapsed⟩
      code := 0 } := by
  have hline : String.join [completionMessage, "\n"] = "End Program\n" := rfl
  rw [conclude, h]
  simp only [Session.printPieces_eq, hline, Session.log, Session.complain_complain]
  rfl

theorem conclude_aborted {capacity : Nat} {limit : UInt64} {e : SieveError}
    (h : sieve capacity limit = .error e) (policy : Policy) (s : Session) :
    conclude capacity limit policy s = {
      session := s.complain (s.heard (sieving limit) ++ s.heard (abortedEvent limit e) ++
        complaint policy e)
      rendering := some fun elapsed => ReportData.rendering ⟨limit, .aborted, none, elapsed⟩
      code := policy.exitCode } := by
  have hline : String.join ["Error: ", e.message, "\n"] = "Error: " ++ e.message ++ "\n" := by
    simp [String.join_cons, String.append_assoc]
  rw [conclude, h]
  cases policy with
  | silent =>
    simp only [Session.log, Session.complain_complain, complaint, String.append_empty]
    rfl
  | report =>
    simp only [Session.complainPieces_eq, hline, Session.log, Session.complain_complain, complaint]
    rfl

theorem conclude_volume (capacity : ℕ) (limit : UInt64) (policy : Policy) (s : Session) :
    (conclude capacity limit policy s).session.volume = s.volume := by
  cases h : sieve capacity limit with
  | ok table => rw [conclude_done h, Session.print_volume, Session.complain_volume]
  | error e => rw [conclude_aborted h, Session.complain_volume]

theorem conclude_listener (capacity : ℕ) (limit : UInt64) (policy : Policy) (s : Session) :
    (conclude capacity limit policy s).session.listener = s.listener := by
  cases h : sieve capacity limit with
  | ok table => rw [conclude_done h, Session.print_listener, Session.complain_listener]
  | error e => rw [conclude_aborted h, Session.complain_listener]

theorem run_err_done {capacity : Nat} {limit : UInt64} {table : PrimeTable} {s : Session}
    {room : Room} (h : sieve capacity limit = .ok table) (hs : s.err = Sink.empty room)
    (policy : Policy) (request : Option Request) (elapsed : Elapsed) :
    (run capacity limit policy request elapsed s).1.err = (Sink.empty room).take (
      utf8 (s.heard (sieving limit) ++ s.heard (sieved limit)) ++
      emission programName request
        (ReportData.rendering ⟨limit, .done, some (UInt64.ofNat table.count), elapsed⟩)
        s.volume s.listener) := by
  have he : ((s.complain (s.heard (sieving limit) ++ s.heard (sieved limit))).print
      "End Program\n").err =
      (Sink.empty room).take (utf8 (s.heard (sieving limit) ++ s.heard (sieved limit))) := by
    rw [Session.print_err, Session.complain_err, hs]
    rfl
  rw [run, conclude_done h, report_err programName request elapsed _ _ he]
  rfl

theorem run_err_aborted {capacity : Nat} {limit : UInt64} {e : SieveError} {s : Session}
    {room : Room} (h : sieve capacity limit = .error e) (hs : s.err = Sink.empty room)
    (policy : Policy) (request : Option Request) (elapsed : Elapsed) :
    (run capacity limit policy request elapsed s).1.err = (Sink.empty room).take (
      utf8 (s.heard (sieving limit) ++ s.heard (abortedEvent limit e) ++ complaint policy e) ++
      emission programName request (ReportData.rendering ⟨limit, .aborted, none, elapsed⟩)
        s.volume s.listener) := by
  have he : (s.complain (s.heard (sieving limit) ++ s.heard (abortedEvent limit e) ++
      complaint policy e)).err = (Sink.empty room).take (utf8 (s.heard (sieving limit) ++
        s.heard (abortedEvent limit e) ++ complaint policy e)) := by
    rw [Session.complain_err, hs]
    rfl
  rw [run, conclude_aborted h, report_err programName request elapsed _ _ he]
  rfl

theorem run_done {capacity : Nat} {limit : UInt64} {table : PrimeTable}
    (h : sieve capacity limit = .ok table) (policy : Policy) (request : Option Request)
    (elapsed : Elapsed) (s : Session) :
    (run capacity limit policy request elapsed s).2 = 0 ∧
      (run capacity limit policy request elapsed s).1.out = s.out.write "End Program\n" := by
  rw [run, conclude_done h, report_code, report_out]
  exact ⟨rfl, rfl⟩

theorem run_aborted {capacity : Nat} {limit : UInt64} {e : SieveError}
    (h : sieve capacity limit = .error e) (policy : Policy) (request : Option Request)
    (elapsed : Elapsed) (s : Session) :
    (run capacity limit policy request elapsed s).2 = policy.exitCode ∧
      (run capacity limit policy request elapsed s).1.out = s.out := by
  rw [run, conclude_aborted h, report_code, report_out]
  exact ⟨rfl, rfl⟩

theorem run_offers (capacity : Nat) (limit : UInt64) (policy : Policy) :
    ∃ code text, ∀ request elapsed s, (run capacity limit policy request elapsed s).2 = code ∧
      (run capacity limit policy request elapsed s).1.out = s.out.write text := by
  cases h : sieve capacity limit with
  | ok table => exact ⟨0, "End Program\n", run_done h policy⟩
  | error e =>
    refine ⟨policy.exitCode, "", ?_⟩
    intro request elapsed s
    rw [Sink.write_empty]
    exact run_aborted h policy request elapsed s

/-- A run with streams of any room, which part what they are given as they like. The lines of log
events are on the error stream only if a listener shows them there. -/
theorem run_outcome (capacity : Nat) (limit : UInt64) (policy : Policy)
    (request : Option Request) (elapsed : Elapsed) (outRoom errRoom : Room) (v : Volume)
    (listener : Option Listener) :
    let before : Session := ⟨Sink.empty outRoom, Sink.empty errRoom, v, listener⟩
    let after := (run capacity limit policy request elapsed before).1
    let code := (run capacity limit policy request elapsed before).2
    let reported (outcome : Outcome) (count : Option UInt64) := emission programName request
      (ReportData.rendering ⟨limit, outcome, count, elapsed⟩) v listener
    (limit.toNat + 1 ≤ min capacity (2 ^ 64 - 1) →
      ∃ table, sieve capacity limit = .ok table ∧ code = 0 ∧
        Sink.Received outRoom (utf8 "End Program\n") after.out ∧
        Sink.Received errRoom (
          utf8 (before.heard (sieving limit) ++ before.heard (sieved limit)) ++
          reported .done (some (UInt64.ofNat table.count))) after.err) ∧
    (min capacity (2 ^ 64 - 1) < limit.toNat + 1 →
      ∃ e, sieve capacity limit = .error e ∧
        code = (match policy with | .report => 1 | .silent => 0) ∧
        after.out.written = [] ∧
        Sink.Received errRoom (
          utf8 (before.heard (sieving limit) ++ before.heard (abortedEvent limit e) ++
            match policy with
            | .report => "Error: failed to allocate presence array of " ++
                toString (min (limit.toNat + 1) (2 ^ 64 - 1)) ++ " slots\n"
            | .silent => "") ++
          reported .aborted none) after.err) ∧
    (listener = none → ∀ e, before.heard e = "") ∧
    ∃ text, ∀ request' elapsed' s',
      (run capacity limit policy request' elapsed' s').2 = code ∧
      (run capacity limit policy request' elapsed' s').1.out = s'.out.write text := by
  intro before after code reported
  refine ⟨?_, ?_, ?_, ?_⟩
  · intro h
    have hr : reserve capacity limit = .ok () := by
      rw [reserve_eq_ok_iff]
      omega
    obtain ⟨table, hok, -⟩ := sieve_of_reserve hr
    refine ⟨table, hok, ?_, ?_, ?_⟩
    · exact (run_done hok policy request elapsed before).1
    · rw [show after.out = _ from (run_done hok policy request elapsed before).2]
      exact Sink.received_take ..
    · rw [show after.err = _ from run_err_done hok rfl policy request elapsed]
      exact Sink.received_take ..
  · intro h
    obtain ⟨e, hr, hmessage⟩ := reserve_refused h
    have herr := sieve_of_refusal hr
    refine ⟨e, herr, ?_, ?_, ?_⟩
    · rw [show code = _ from (run_aborted herr policy request elapsed before).1]
      cases policy <;> rfl
    · rw [show after.out = _ from (run_aborted herr policy request elapsed before).2]
      rfl
    · rw [show after.err = _ from run_err_aborted herr rfl policy request elapsed]
      cases policy with
      | silent => exact Sink.received_take ..
      | report =>
        simp only [complaint, hmessage, String.append_assoc]
        exact Sink.received_take ..
  · intro hnone
    exact Session.heard_unheard hnone
  · obtain ⟨code', text, hall⟩ := run_offers capacity limit policy
    refine ⟨text, ?_⟩
    intro request' elapsed' s'
    have hcode : code = code' := (hall request elapsed before).1
    rw [hcode]
    exact hall request' elapsed' s'

end LeibnizSieve.Sieve
