import MetricsQuery.Proofs.Command.Block
import MetricsQuery.Proofs.Command.Settings
import MetricsQuery.Proofs.Context.Agreement
import MetricsQuery.Proofs.Query.Decoder

/-!
# What a range command prints

A range command succeeds exactly if the reply to its request answers it (`Answered`), and then it
prints the warnings that came with the answer and the series of the answer. As JSON the series are
one document, and all that is printed is this document if there is no warning. The line of a warning
is no JSON, so with one of them there is no document at all: `range_json`.
-/

namespace MetricsQuery

/-- The line that a warning is printed in. -/
def Warning.line (w : String) : String := "warning: " ++ w

/-- No JSON starts with the line of a warning. -/
theorem Warning.not_isDocument (w rest : String) (v : Json.Value) :
    ¬ Json.IsDocument v (line w ++ rest) := by
  intro h
  obtain ⟨c, cs, hcs, hc⟩ := h.head
  rw [line, String.toList_append, String.toList_append] at hcs
  obtain ⟨rfl, -⟩ := List.cons.inj hcs
  rw [Json.IsBlank, List.forall_mem_singleton] at hc
  revert hc
  unfold Json.IsOpening
  decide

namespace Command

/-! ## The reply -/

variable {h : Host} {conn : Connection} {q : String} {w : Window} {ws : List String}
  {ss : List Series} {c : Context} {kind : QueryKind}

/-- The command starts, and the reply to its request answers it with the series `ss`, which the
warnings `ws` come with. -/
inductive Answered (h : Host) (conn : Connection) (q : String) (w : Window) (ws : List String)
    (ss : List Series) : Prop
  | mk {c : Context} {kind : QueryKind} {p : Response} {v : Json.Value}
    (hs : Starts h conn (some w) c kind)
    (hreply : h.surroundings.backend.answer [] (c.request h.surroundings.now q kind) = .ok p)
    (hstatus : 200 ≤ p.status ∧ p.status ≤ 299) (hbody : Json.read p.body = .ok v)
    (hwarnings : Warning.Lists v ws) (hcomplete : ∀ x ∈ ws, ¬ Warning.Marked x)
    (hseries : Decoder.Answers v ss)

theorem Starts.decoder {window : Option Window} (hs : Starts h conn window c kind) :
    c.decoder = Decoder.standard := by
  obtain ⟨b, s, -, -, hc⟩ := hs.configured
  exact hc.decoder

/-- A command can start in one way only. -/
theorem Starts.unique {window : Option Window} {c' : Context} {kind' : QueryKind}
    (hs : Starts h conn window c kind) (hs' : Starts h conn window c' kind') :
    c' = c ∧ kind' = kind := by
  obtain ⟨hc, hk⟩ := starts_iff.mp hs
  obtain ⟨hc', hk'⟩ := starts_iff.mp hs'
  exact ⟨Except.ok.inj (hc'.symm.trans hc), Except.ok.inj (hk'.symm.trans hk)⟩

/-- What a range command leaves, by the outcome of its query. -/
structure Leaves (q : String) (json : Bool) (o : Outcome) (e : Ending) : Prop where
  printed : e.printed =
    o.warnings.map Warning.line ++ o.results.toOption.elim [] (resultLines q json)
  succeeded : ∀ ss, o.results = .ok ss → e.failure = none
  failed : ∀ f, o.results = .error f → e.failure = some (.fault f)

/-- A query that is the first of a session comes to the outcome that its reply has, and the session
then holds the errors of this outcome. -/
theorem run_first {env : Surroundings} (kind : QueryKind)
    (hd : ∀ v, ∃ answer, c.decoder q v = .done answer) {s : Session} (hsent : s.sent = [])
    (hcollector : s.collector = {}) :
    ∃ o s', Session.run c env q kind s = (some o, s') ∧
      c.Verdict (c.request env.now q kind) q
        (env.backend.answer [] (c.request env.now q kind)) o ∧
      s'.collector.errors = (Delivery.ofOutcome q o).errorRecords := by
  obtain ⟨o, r, hexecute, hr⟩ := c.execute_finished hd (Session.body c env q kind s)
  have hagrees : Session.Agrees c env q kind o r s := Session.agrees hexecute
  have hverdict := (c.outcome?_execute _ q _ o).mp (congrArg Execution.outcome? hexecute)
  rw [Session.reply, hsent] at hverdict
  refine ⟨o, (Session.run c env q kind s).2, Prod.ext hagrees.inline rfl, hverdict, ?_⟩
  rw [hagrees.collector.1, hcollector, ← hr.2]
  rfl

theorem leaves_runRange {env : Surroundings} (hk : w.kind env.now = .ok kind)
    (hd : ∀ v, ∃ answer, c.decoder q v = .done answer) (log : List LogEntry) (json : Bool) :
    ∃ o, c.Verdict (c.request env.now q kind) q
        (env.backend.answer [] (c.request env.now q kind)) o ∧
      Leaves q json o (runRange env c (({} : Session).logged log) q w json) := by
  obtain ⟨⟨start, stop⟩, hb, rfl⟩ := map_eq_ok_iff.mp hk
  generalize hs : (({} : Session).logged log).logged [.rangeStarted q start stop w.step] = s
  obtain ⟨o, s', hrun, hverdict, herrors⟩ :=
    run_first (.range start stop w.step) hd (hs ▸ rfl : s.sent = []) (hs ▸ rfl)
  refine ⟨o, hverdict, ?_⟩
  simp only [runRange, hb, hs, hrun]
  cases hresults : o.results with
  | error f =>
    refine ⟨?_, fun ss hss => ?_, fun f' hf => ?_⟩
    · rw [hresults]
      exact (List.append_nil _).symm
    · cases hresults.symm.trans hss
    · cases hresults.symm.trans hf
      rfl
  | ok ss =>
    refine ⟨?_, fun _ _ => ?_, fun f' hf => ?_⟩
    · rw [hresults]
      rfl
    · have hnone : s'.collector.errors = [] := by
        rw [herrors, Delivery.errorRecords, Delivery.ofOutcome, hresults]
        rfl
      exact (collected_eq _).trans (if_pos hnone)
    · cases hresults.symm.trans hf

/-- A range command that starts leaves what the reply to its request comes to. -/
theorem Starts.leaves (hs : Starts h conn (some w) c kind) (json : Bool) :
    ∃ o, c.Verdict (c.request h.surroundings.now q kind) q
        (h.surroundings.backend.answer [] (c.request h.surroundings.now q kind)) o ∧
      Leaves q json o (run h conn (.range q w json)) := by
  obtain ⟨hc, hk⟩ := starts_iff.mp hs
  cases hcx : conn.context h with
  | mk r log =>
    rw [hcx] at hc
    subst hc
    simp only [run, hcx]
    exact leaves_runRange hk (fun v => ⟨_, by rw [hs.decoder]; rfl⟩) log json

/-- The reply answers the command exactly if it comes to these results and these warnings. -/
theorem Starts.answered_iff (hs : Starts h conn (some w) c kind) {o : Outcome}
    (ho : c.Verdict (c.request h.surroundings.now q kind) q
      (h.surroundings.backend.answer [] (c.request h.surroundings.now q kind)) o) :
    Answered h conn q w ws ss ↔ o.results = .ok ss ∧ o.warnings = ws := by
  constructor
  · rintro ⟨hs', hreply, hstatus, hbody, hwarnings, hcomplete, hseries⟩
    obtain ⟨rfl, rfl⟩ := hs.unique hs'
    rw [hreply] at ho
    have hd := congrArg Decoding.done ((Decoder.decode_eq_ok_iff q _ ss).mpr hseries)
    obtain rfl := ho.unique _ (.decoded hstatus hbody hwarnings hcomplete
      ((congrFun₂ hs.decoder q _).trans hd))
    exact ⟨rfl, rfl⟩
  · rintro ⟨hresults, rfl⟩
    generalize hreply : h.surroundings.backend.answer [] _ = reply at ho
    cases ho with
    | unanswered | refused | unreadable | incomplete => cases hresults
    | decoded hstatus hbody hwarnings hcomplete hd =>
      obtain rfl := hresults
      rw [hs.decoder] at hd
      refine ⟨hs, hreply, hstatus, hbody, hwarnings, hcomplete, ?_⟩
      exact (Decoder.decode_eq_ok_iff q _ ss).mp (Decoding.done.inj hd)

/-- A range command succeeds exactly if it is answered. -/
theorem exitCode_range_iff (json : Bool) :
    (run h conn (.range q w json)).exitCode = 0 ↔ ∃ ws ss, Answered h conn q w ws ss := by
  constructor
  · intro hexit
    rcases starts_or_fails h conn (some w) with ⟨c, kind, hs⟩ | hf
    · obtain ⟨o, ho, hleaves⟩ := hs.leaves json
      cases hresults : o.results with
      | ok ss => exact ⟨_, ss, (hs.answered_iff ho).mpr ⟨hresults, rfl⟩⟩
      | error f =>
        rw [Ending.exitCode, hleaves.failed f hresults] at hexit
        cases hexit
    · cases hexit.symm.trans (hf.exit (.range q w json)).1
  · rintro ⟨ws, ss, ha⟩
    obtain ⟨hs, -⟩ := id ha
    obtain ⟨o, ho, hleaves⟩ := hs.leaves json
    rw [Ending.exitCode, hleaves.succeeded ss ((hs.answered_iff ho).mp ha).1]
    rfl

/-- What is printed for an answer: its warnings and then its series. -/
theorem Answered.printed (ha : Answered h conn q w ws ss) (json : Bool) :
    (run h conn (.range q w json)).printed = ws.map Warning.line ++ resultLines q json ss := by
  obtain ⟨hs, -⟩ := id ha
  obtain ⟨o, ho, hleaves⟩ := hs.leaves json
  obtain ⟨hresults, rfl⟩ := (hs.answered_iff ho).mp ha
  rw [hleaves.printed, hresults]
  rfl

/-- A range command that prints JSON succeeds exactly if the reply to its request answers it. Then
it prints a line for each warning and after them the array of the series of the answer, one element
each, in their order. If there is no warning, all that is printed is a document of this array. If
there is one, what is printed is no document of anything. -/
theorem range_json (h : Host) (conn : Connection) (q : String) (w : Window) :
    ((run h conn (.range q w true)).exitCode = 0 ↔ ∃ ws ss, Answered h conn q w ws ss) ∧
    ∀ ws ss, Answered h conn q w ws ss →
      (run h conn (.range q w true)).stdout =
        String.join (ws.map fun x => "warning: " ++ x ++ "\n") ++ (seriesJson ss).pretty ++ "\n" ∧
      (ws = [] → Json.IsDocument (.array (ss.map fun s => .object s.members))
        (run h conn (.range q w true)).stdout) ∧
      (ws ≠ [] → ∀ v, ¬ Json.IsDocument v (run h conn (.range q w true)).stdout) := by
  refine ⟨exitCode_range_iff true, fun ws ss ha => ?_⟩
  have hstdout : (run h conn (.range q w true)).stdout =
      String.join (ws.map fun x => "warning: " ++ x ++ "\n") ++ (seriesJson ss).pretty ++ "\n" := by
    rw [Ending.stdout, ha.printed, List.map_append, String.join_append, List.map_map,
      String.append_assoc]
    refine congrArg _ ?_
    rw [resultLines, if_pos rfl, List.map_singleton, String.join_cons, String.join_nil,
      String.append_empty]
  rw [hstdout]
  refine ⟨rfl, ?_, fun hne v => ?_⟩
  · rintro rfl
    rw [List.map_nil, String.join_nil, String.empty_append]
    exact (prints_seriesJson ss).isDocument
  · obtain ⟨x, xs, rfl⟩ := List.exists_cons_of_ne_nil hne
    rw [List.map_cons, String.join_cons]
    simp only [String.append_assoc]
    exact Warning.not_isDocument x _ v

/-- A host without files, where every request is answered with the body. -/
def answeringHost (body : String) : Host :=
  ⟨fun _ => .error "no such file", fun _ => none,
    ⟨⟨fun _ => true, fun _ _ => .ok ⟨200, [], Utf8.encode body⟩⟩, .epoch, .zero⟩⟩

/-- A connection to an address that is valid. -/
def testConnection : Connection := { address := some "http://prom.test" }

/-- A series that comes without a warning is printed as a document. -/
theorem range_json_series :
    let h := answeringHost ("\x7b\"status\":\"success\",\"data\":\x7b\"resultType\":\"matrix\"," ++
      "\"result\":[\x7b\"metric\":\x7b\"job\":\"a\"\x7d,\"values\":[[0,\"1\"]]\x7d]\x7d\x7d")
    let w : Window := { step := Window.standardStep }
    let e := run h testConnection (.range "up" w true)
    e.exitCode = 0 ∧ ∃ ss, Answered h testConnection "up" w [] ss ∧
      Json.IsDocument (.array (ss.map fun s => .object s.members)) e.stdout := by
  intro h w e
  have hexit : e.exitCode = 0 := by decide +kernel
  have hlength : e.printed.length = 1 := by decide +kernel
  obtain ⟨hiff, hprints⟩ := range_json h testConnection "up" w
  obtain ⟨ws, ss, ha⟩ := hiff.mp hexit
  obtain rfl : ws = [] := by
    rw [ha.printed true, List.length_append, List.length_map] at hlength
    exact List.length_eq_zero_iff.mp (Nat.succ.inj hlength)
  exact ⟨hexit, ss, ha, (hprints [] ss ha).2.1 rfl⟩

/-- With a warning the run succeeds too, but what is printed is no JSON. -/
theorem not_isDocument_of_warning :
    let h := answeringHost ("\x7b\"status\":\"success\",\"warnings\":[\"partial response\"]," ++
      "\"data\":\x7b\"resultType\":\"matrix\",\"result\":[]\x7d\x7d")
    let e := run h testConnection (.range "up" { step := Window.standardStep } true)
    e.exitCode = 0 ∧ ∀ v, ¬ Json.IsDocument v e.stdout := by
  intro h e
  have hexit : e.exitCode = 0 := by decide +kernel
  have hprinted : e.printed = [Warning.line "partial response", "[]"] := by decide +kernel
  refine ⟨hexit, fun v => ?_⟩
  rw [Ending.stdout, hprinted, List.map_cons, String.join_cons, String.append_assoc]
  exact Warning.not_isDocument _ _ v

end Command

end MetricsQuery
