import MetricsQuery.Proofs.Client
import MetricsQuery.Proofs.Command.Query
import MetricsQuery.Proofs.Command.Window

/-!
# The settings of a command

What a command is given about its connection comes in layers: the words of the command line, the
environment, a file and the standard settings. `Resolved` says which layer each setting is taken
from, `Context.Configured` what a context makes of them, and `Fails` what can be wrong with them or
with the window of a range. Either a command can start or something is wrong (`starts_iff`); it sends
its queries as its context makes their requests, or nothing: `run_configured`.
-/

namespace MetricsQuery

/-! ## Files -/

namespace Settings

/-- The fields that a text has as a document. -/
def Reads (text : String) (f : Fields) : Prop :=
  (Yaml.Document.ofText text).record "struct PromConfig" (readField (.ofText text)) {}
    requireAddress = .ok f

/-- The settings that a file holds: it can be read, it is text that has the fields, and the offset
in it, if there is one, is a duration. -/
inductive Held (content : FileContent) : Settings → Prop
  | intro {bytes text f d} (hc : content = .ok bytes) (hu : Utf8.decode? bytes = some text)
    (hf : Reads text f) (hd : (ofFields f).offset = .ok d) : Held content (ofFields f)

/-- Why a file holds no settings. -/
inductive Unusable (content : FileContent) : Prop
  | unreadable {reason} (hc : content = .error reason)
  | binary {bytes} (hc : content = .ok bytes) (hu : Utf8.decode? bytes = none)
  | malformed {bytes text} (hc : content = .ok bytes) (hu : Utf8.decode? bytes = some text)
    (hf : ∀ f, ¬ Reads text f)
  | badOffset {bytes text f offset} (hc : content = .ok bytes) (hu : Utf8.decode? bytes = some text)
    (hf : Reads text f) (ho : (ofFields f).queryOffset = some offset)
    (hd : Duration.ofText? offset = none)

variable {content : FileContent} {s : Settings} {text : String}

theorem durationOf_eq_ok_iff {d : Duration} :
    durationOf text = .ok d ↔ Duration.ofText? text = some d := by
  unfold durationOf
  cases Duration.ofText? text <;> simp

/-- There is an offset unless its text is no duration. -/
theorem offset_ok_or (s : Settings) :
    (∃ d, s.offset = .ok d) ∨
      ∃ text, s.queryOffset = some text ∧ Duration.ofText? text = none := by
  unfold offset
  cases s.queryOffset with
  | none => exact .inl ⟨_, rfl⟩
  | some text =>
    cases h : Duration.ofText? text with
    | some d => exact .inl ⟨d, durationOf_eq_ok_iff.mpr h⟩
    | none => exact .inr ⟨text, rfl, h⟩

theorem not_offset_ok (hq : s.queryOffset = some text) (h : Duration.ofText? text = none)
    (d : Duration) : s.offset ≠ .ok d := by
  rw [offset, hq]
  intro hd
  rw [durationOf_eq_ok_iff.mp hd] at h
  cases h

theorem ofYaml_eq_ok_iff :
    ofYaml text = .ok s ↔ ∃ f d, Reads text f ∧ s = ofFields f ∧ s.offset = .ok d := by
  unfold ofYaml Reads
  simp only
  split
  · next h => simp [h]
  · next f h =>
    rw [h]
    constructor
    · intro h
      obtain ⟨d, hd, hs⟩ := bind_eq_ok_iff.mp h
      cases hs
      exact ⟨f, d, rfl, rfl, hd⟩
    · rintro ⟨f, d, hf, rfl, hd⟩
      cases hf
      exact bind_eq_ok_iff.mpr ⟨d, hd, rfl⟩

theorem held_iff : Held content s ↔ ∃ bytes text, content = .ok bytes ∧
    Utf8.decode? bytes = some text ∧ ofYaml text = .ok s := by
  constructor
  · rintro ⟨hc, hu, hf, hd⟩
    exact ⟨_, _, hc, hu, ofYaml_eq_ok_iff.mpr ⟨_, _, hf, rfl, hd⟩⟩
  · rintro ⟨bytes, text, hc, hu, hy⟩
    obtain ⟨f, d, hf, rfl, hd⟩ := ofYaml_eq_ok_iff.mp hy
    exact ⟨hc, hu, hf, hd⟩

/-- Any file holds settings or there is a reason why not. -/
theorem held_or_unusable (content : FileContent) : (∃ s, Held content s) ∨ Unusable content := by
  cases hc : content with
  | error reason => exact .inr (.unreadable rfl)
  | ok bytes =>
    cases hu : Utf8.decode? bytes with
    | none => exact .inr (.binary rfl hu)
    | some text =>
      by_cases hf : ∃ f, Reads text f
      · obtain ⟨f, hf⟩ := hf
        rcases offset_ok_or (ofFields f) with ⟨d, hd⟩ | ⟨offset, ho, hd⟩
        · exact .inl ⟨_, rfl, hu, hf, hd⟩
        · exact .inr (.badOffset rfl hu hf ho hd)
      · exact .inr (.malformed rfl hu (not_exists.mp hf))

theorem Unusable.not_held (h : Unusable content) (s : Settings) : ¬ Held content s := by
  rintro ⟨hc, hu, hf, hd⟩
  cases h with
  | unreadable hc' => cases hc.symm.trans hc'
  | binary hc' hu' =>
    cases hc.symm.trans hc'
    cases hu.symm.trans hu'
  | malformed hc' hu' hf' =>
    cases hc.symm.trans hc'
    cases hu.symm.trans hu'
    exact hf' _ hf
  | badOffset hc' hu' hf' ho hd' =>
    cases hc.symm.trans hc'
    cases hu.symm.trans hu'
    cases Except.ok.inj (hf.symm.trans hf')
    exact not_offset_ok ho hd' _ hd

theorem ofFile_eq_ok_iff {path : String} {env : Environment} :
    ofFile path content env = .ok s ↔ ∃ b, Held content b ∧ s = b.withEnvironment env := by
  unfold ofFile
  constructor
  · intro h
    obtain ⟨bytes, hc, h⟩ := bind_eq_ok_iff.mp h
    split at h
    · cases h
    · next text hu =>
      obtain ⟨b, hy, hs⟩ := bind_eq_ok_iff.mp h
      cases hs
      exact ⟨b, held_iff.mpr ⟨bytes, text, mapError_eq_ok_iff.mp hc, hu, hy⟩, rfl⟩
  · rintro ⟨b, hb, rfl⟩
    obtain ⟨bytes, text, hc, hu, hy⟩ := held_iff.mp hb
    refine bind_eq_ok_iff.mpr ⟨bytes, mapError_eq_ok_iff.mpr hc, ?_⟩
    rw [hu]
    exact bind_eq_ok_iff.mpr ⟨b, hy, rfl⟩

end Settings

/-! ## Layers -/

/-- The settings below those of the environment: those of the file that is named, or else the
standard ones. -/
inductive Connection.Based (h : Host) (conn : Connection) : Settings → Prop
  | standard (hn : conn.configFile = none) : Based h conn {}
  | file {path b} (hn : conn.configFile = some path) (hb : Settings.Held (h.files path) b) :
    Based h conn b

/-- The settings `s` of a connection, each from the first layer that has it. An empty address in the
environment is none, an empty offset is one. -/
structure Connection.Resolved (h : Host) (conn : Connection) (base s : Settings) : Prop where
  address_given : ∀ a, conn.address = some a → s.address = a
  address_variable : ∀ a, conn.address = none →
    h.environment Settings.addressVariable = some a → a ≠ "" → s.address = a
  address_base : conn.address = none →
    (∀ a, h.environment Settings.addressVariable = some a → a = "") → s.address = base.address
  offset_given : ∀ o, conn.queryOffset = some o → s.queryOffset = some o
  offset_variable : ∀ o, conn.queryOffset = none →
    h.environment Settings.offsetVariable = some o → s.queryOffset = some o
  offset_base : conn.queryOffset = none → h.environment Settings.offsetVariable = none →
    s.queryOffset = base.queryOffset
  name_given : ∀ n, conn.contextName = some n → s.contextName = some n
  name_base : conn.contextName = none → s.contextName = base.contextName
  timeout : s.timeoutMs = base.timeoutMs

/-- What a context makes of settings. -/
structure Context.Configured (c : Context) (s : Settings) : Prop where
  address : Url.ofText s.address = .ok c.client.base
  isBase : c.client.base.isBase = true
  name : c.name = s.contextName.getD ""
  offset_none : s.queryOffset = none → c.offset = .zero
  offset_empty : s.queryOffset = some "" → c.offset = .zero
  offset_text : ∀ text, s.queryOffset = some text → Duration.ofText? text = some c.offset
  decoder : c.decoder = Decoder.standard

variable {h : Host} {conn : Connection} {b s : Settings} {c : Context}

namespace Connection

theorem resolved_iff : Resolved h conn b s ↔ s =
    { address := conn.address.getD (b.withEnvironment h.environment).address
      contextName := conn.contextName.or b.contextName
      queryOffset := conn.queryOffset.or (b.withEnvironment h.environment).queryOffset
      timeoutMs := b.timeoutMs } := by
  constructor
  · intro hr
    have haddress : s.address = conn.address.getD (b.withEnvironment h.environment).address := by
      rw [Settings.withEnvironment]
      cases ha : conn.address with
      | some a => exact hr.address_given a ha
      | none =>
        cases hv : h.environment Settings.addressVariable with
        | none => exact hr.address_base ha (by rw [hv]; nofun)
        | some a =>
          by_cases he : a = ""
          · subst he
            exact hr.address_base ha fun a h => (Option.some.inj (hv.symm.trans h)).symm
          · rw [hr.address_variable a ha hv he]
            simp [Option.filter_some, he]
    have hname : s.contextName = conn.contextName.or b.contextName := by
      cases hn : conn.contextName with
      | some n => exact hr.name_given n hn
      | none => exact hr.name_base hn
    have hoffset :
        s.queryOffset = conn.queryOffset.or (b.withEnvironment h.environment).queryOffset := by
      rw [Settings.withEnvironment]
      cases ho : conn.queryOffset with
      | some o => exact hr.offset_given o ho
      | none =>
        cases hv : h.environment Settings.offsetVariable with
        | some o => exact hr.offset_variable o ho hv
        | none => exact hr.offset_base ho hv
    obtain ⟨address, offset, timeout, name⟩ := s
    obtain rfl := hr.timeout
    rw [Settings.mk.injEq]
    exact ⟨haddress, hoffset, rfl, hname⟩
  · rintro rfl
    constructor
    case address_base =>
      intro ha he
      cases hv : h.environment Settings.addressVariable with
      | none => simp [Settings.withEnvironment, ha, hv]
      | some a => simp [Settings.withEnvironment, ha, hv, he a hv, Option.filter_some]
    all_goals simp +contextual [Settings.withEnvironment, Option.filter_some]

/-- The settings of a connection are those of its layers. -/
theorem settings_eq_ok_iff :
    conn.settings h = .ok s ↔ ∃ b, Based h conn b ∧ Resolved h conn b s := by
  simp only [resolved_iff]
  unfold settings
  cases hn : conn.configFile with
  | none =>
    constructor
    · intro he
      cases he
      exact ⟨{}, .standard hn, rfl⟩
    · rintro ⟨b, hb, rfl⟩
      cases hb with
      | standard => rfl
      | file hn' => cases hn.symm.trans hn'
  | some path =>
    constructor
    · intro he
      obtain ⟨s', hs', he⟩ := bind_eq_ok_iff.mp he
      obtain ⟨b, hb, rfl⟩ := Settings.ofFile_eq_ok_iff.mp hs'
      cases he
      exact ⟨b, .file hn hb, rfl⟩
    · rintro ⟨b, hb, rfl⟩
      cases hb with
      | standard hn' => cases hn.symm.trans hn'
      | file hn' hb =>
        cases hn.symm.trans hn'
        exact bind_eq_ok_iff.mpr ⟨_, Settings.ofFile_eq_ok_iff.mpr ⟨b, hb, rfl⟩, rfl⟩

/-- A file, a variable and a parameter give one setting each. -/
example :
    let yaml := "address: http://file\nquery_offset: 5m\ncontext_name: night"
    let h : Host :=
      ⟨fun _ => .ok yaml.toUTF8.toList,
        fun v => if v = Settings.addressVariable then some "http://variable" else none,
        ⟨.unreachable, .epoch, .zero⟩⟩
    let conn : Connection := { configFile := some "settings.yaml", queryOffset := some "" }
    conn.settings h = .ok ⟨"http://variable", some "", 120000, some "night"⟩ := by
  decide +kernel

end Connection

theorem Context.configured_iff : c.Configured s ↔ Context.ofSettings s = .ok c := by
  constructor
  · intro hc
    have ho : s.offset = .ok c.offset := by
      rw [Settings.offset]
      cases hq : s.queryOffset with
      | none => rw [hc.offset_none hq]
      | some text => exact Settings.durationOf_eq_ok_iff.mpr (hc.offset_text text hq)
    refine bind_eq_ok_iff.mpr ⟨c.client, Client.ofAddress_eq_ok_iff.mpr ⟨hc.address, hc.isBase⟩,
      bind_eq_ok_iff.mpr ⟨c.offset, ho, ?_⟩⟩
    rw [← hc.name, ← hc.decoder]
  · intro h
    obtain ⟨client, hclient, h⟩ := bind_eq_ok_iff.mp h
    obtain ⟨d, hd, h⟩ := bind_eq_ok_iff.mp h
    cases h
    obtain ⟨ha, hb⟩ := Client.ofAddress_eq_ok_iff.mp hclient
    refine ⟨ha, hb, rfl, fun hq => ?_, fun hq => ?_, fun text hq => ?_, rfl⟩
    · rw [Settings.offset, hq] at hd
      exact (Except.ok.inj hd).symm
    · rw [Settings.offset, hq] at hd
      exact Option.some.inj ((Settings.durationOf_eq_ok_iff.mp hd).symm.trans (by decide))
    · rw [Settings.offset, hq] at hd
      exact Settings.durationOf_eq_ok_iff.mp hd

/-- A connection gives the contexts that its settings, taken from their layers, describe. -/
theorem Connection.context_eq_ok_iff :
    (conn.context h).1 = .ok c ↔ ∃ b s, Based h conn b ∧ Resolved h conn b s ∧ c.Configured s := by
  have hsettings : (∃ b s, Based h conn b ∧ Resolved h conn b s ∧ c.Configured s) ↔
      ∃ s, conn.settings h = .ok s ∧ Context.ofSettings s = .ok c := by
    constructor
    · rintro ⟨b, s, hb, hr, hc⟩
      exact ⟨s, settings_eq_ok_iff.mpr ⟨b, hb, hr⟩, Context.configured_iff.mp hc⟩
    · rintro ⟨s, hs, hc⟩
      obtain ⟨b, hb, hr⟩ := settings_eq_ok_iff.mp hs
      exact ⟨b, s, hb, hr, Context.configured_iff.mpr hc⟩
  rw [hsettings, context]
  cases conn.settings h with
  | error f => simp
  | ok s =>
    simp only [Except.ok.injEq, exists_eq_left']
    cases hclient : Client.ofAddress s.address with
    | error f =>
      constructor
      · nofun
      · intro hc
        obtain ⟨client, hclient', -⟩ := bind_eq_ok_iff.mp hc
        cases hclient.symm.trans hclient'
    | ok client => exact mapError_eq_ok_iff

/-! ## Commands -/

namespace Command

/-- The queries that a command asks the backend, and the window if they are about a range. -/
inductive Asks : Command → List String → Option Window → Prop
  | query (queries : List String) (profiled json : Bool) :
    Asks (.query queries profiled json) queries none
  | range (q : String) (w : Window) (json : Bool) : Asks (.range q w json) [q] (some w)
  | raw (q : String) (w : Option Window) : Asks (.raw q w) [q] w

/-- What lets a command start: settings from their layers that a context can be made of, and a window
that does not end before it starts. -/
structure Starts (h : Host) (conn : Connection) (window : Option Window) (c : Context)
    (kind : QueryKind) : Prop where
  configured : ∃ b s, conn.Based h b ∧ conn.Resolved h b s ∧ c.Configured s
  instant : window = none → kind = .instant
  range : ∀ w, window = some w → ∃ start stop,
    w.Spans h.surroundings.now start stop ∧ kind = .range start stop w.step

/-- What can be wrong before a command starts. The file has to be right whatever else is given. -/
inductive Fails (h : Host) (conn : Connection) (window : Option Window) : Prop
  | file {path : String} (hn : conn.configFile = some path)
    (hu : Settings.Unusable (h.files path))
  | address {b s : Settings} (hb : conn.Based h b) (hr : conn.Resolved h b s)
    (hu : ∀ u, Url.ofText s.address = .ok u → u.isBase = false)
  | offset {b s : Settings} {text : String} (hb : conn.Based h b) (hr : conn.Resolved h b s)
    (ho : s.queryOffset = some text) (hd : Duration.ofText? text = none)
  | window {w : Window} (hw : window = some w) (hb : w.Backwards h.surroundings.now)

/-- How the queries of a command are evaluated. -/
def kindOf (window : Option Window) (now : Instant) : Except CommandFault QueryKind :=
  window.elim (.ok .instant) fun w => w.kind now

variable {command : Command} {queries : List String} {window : Option Window} {kind : QueryKind}

theorem starts_iff : Starts h conn window c kind ↔
    (conn.context h).1 = .ok c ∧ kindOf window h.surroundings.now = .ok kind := by
  rw [Connection.context_eq_ok_iff]
  cases window with
  | none =>
    constructor
    · exact fun hs => ⟨hs.configured, congrArg _ (hs.instant rfl).symm⟩
    · rintro ⟨hc, hk⟩
      exact ⟨hc, fun _ => (Except.ok.inj hk).symm, nofun⟩
  | some w =>
    constructor
    · exact fun hs => ⟨hs.configured, Window.kind_eq_ok_iff.mpr (hs.range w rfl)⟩
    · rintro ⟨hc, hk⟩
      exact ⟨hc, nofun, fun w' hw => Option.some.inj hw ▸ Window.kind_eq_ok_iff.mp hk⟩

theorem Fails.not_starts (hf : Fails h conn window) (c : Context) (kind : QueryKind) :
    ¬ Starts h conn window c kind := by
  rintro ⟨⟨b, s, hb, hr, hc⟩, -, hrange⟩
  -- The layers leave no choice, so what is wrong with their settings is wrong with those of `c`.
  have hsame : ∀ {b' s'}, conn.Based h b' → conn.Resolved h b' s' → s' = s := fun hb' hr' =>
    Except.ok.inj ((Connection.settings_eq_ok_iff.mpr ⟨_, hb', hr'⟩).symm.trans
      (Connection.settings_eq_ok_iff.mpr ⟨_, hb, hr⟩))
  cases hf with
  | file hn hu =>
    cases hb with
    | standard hn' => cases hn.symm.trans hn'
    | file hn' hb =>
      cases hn.symm.trans hn'
      exact hu.not_held _ hb
  | address hb' hr' hu =>
    obtain rfl := hsame hb' hr'
    exact Bool.false_ne_true ((hu _ hc.address).symm.trans hc.isBase)
  | offset hb' hr' ho hd =>
    obtain rfl := hsame hb' hr'
    cases hd.symm.trans (hc.offset_text _ ho)
  | window hw hback =>
    exact Window.backwards_iff.mp hback _ (Window.kind_eq_ok_iff.mpr (hrange _ hw))

theorem exists_based (h : Host) (conn : Connection) :
    (∃ b, conn.Based h b) ∨
      ∃ path, conn.configFile = some path ∧ Settings.Unusable (h.files path) := by
  cases hn : conn.configFile with
  | none => exact .inl ⟨{}, .standard hn⟩
  | some path =>
    rcases Settings.held_or_unusable (h.files path) with ⟨b, hb⟩ | hu
    · exact .inl ⟨b, .file hn hb⟩
    · exact .inr ⟨path, rfl, hu⟩

/-- Nothing is between starting and failing. -/
theorem starts_or_fails (h : Host) (conn : Connection) (window : Option Window) :
    (∃ c kind, Starts h conn window c kind) ∨ Fails h conn window := by
  rcases exists_based h conn with ⟨b, hb⟩ | ⟨path, hn, hu⟩
  swap
  · exact .inr (.file hn hu)
  obtain ⟨s, hr⟩ : ∃ s, conn.Resolved h b s := ⟨_, Connection.resolved_iff.mpr rfl⟩
  by_cases hu : ∀ u, Url.ofText s.address = .ok u → u.isBase = false
  · exact .inr (.address hb hr hu)
  simp only [not_forall, Bool.not_eq_false] at hu
  obtain ⟨u, hu, hbase⟩ := hu
  rcases Settings.offset_ok_or s with ⟨d, hd⟩ | ⟨text, ho, hd⟩
  swap
  · exact .inr (.offset hb hr ho hd)
  have hc := Context.configured_iff.mpr <| bind_eq_ok_iff.mpr
    ⟨⟨u⟩, Client.ofAddress_eq_ok_iff.mpr ⟨hu, hbase⟩, bind_eq_ok_iff.mpr ⟨d, hd, rfl⟩⟩
  have hcontext := Connection.context_eq_ok_iff.mpr ⟨b, s, hb, hr, hc⟩
  by_cases hk : ∃ kind, kindOf window h.surroundings.now = .ok kind
  · obtain ⟨kind, hk⟩ := hk
    exact .inl ⟨_, kind, starts_iff.mpr ⟨hcontext, hk⟩⟩
  · cases window with
    | none => exact absurd ⟨_, rfl⟩ hk
    | some w => exact .inr (.window rfl (Window.backwards_iff.mpr (not_exists.mp hk)))

theorem sent_runQuery (env : Surroundings) (c : Context) (s : Session) (queries : List String)
    (profiled json : Bool) :
    (runQuery env c s queries profiled json).sent =
      s.sent ++ queries.map fun q => c.request env.now q .instant := by
  rw [runQuery_eq]
  rfl

theorem sent_runRange {env : Surroundings} {w : Window} (hk : w.kind env.now = .ok kind)
    (c : Context) (s : Session) (q : String) (json : Bool) :
    (runRange env c s q w json).sent = s.sent ++ [c.request env.now q kind] := by
  obtain ⟨⟨start, stop⟩, hb, rfl⟩ := map_eq_ok_iff.mp hk
  simp only [runRange, hb, Session.run]
  split
  · next he =>
    obtain ⟨-, rfl⟩ := Prod.mk.inj he
    rfl
  · next he =>
    obtain ⟨-, rfl⟩ := Prod.mk.inj he
    split <;> rfl

theorem sent_runRaw {env : Surroundings} (hk : kindOf window env.now = .ok kind) (c : Context)
    (s : Session) (q : String) :
    (runRaw env c s q window).sent = s.sent ++ [c.request env.now q kind] := by
  unfold kindOf at hk
  simp only [runRaw, hk, Session.raw]
  split <;> next he =>
    obtain ⟨-, rfl⟩ := Prod.mk.inj he
    rfl

theorem run_of_error {e : CommandFault} {log : List LogEntry}
    (hc : conn.context h = (.error e, log)) (ha : Asks command queries window) :
    run h conn command = { log, failure := some e } := by
  cases ha <;> simp only [run, hc]

/-- A command that starts sends its queries, each as its context makes the request of it. -/
theorem Starts.sent (hs : Starts h conn window c kind) (ha : Asks command queries window) :
    (run h conn command).sent = queries.map fun q => c.request h.surroundings.now q kind := by
  obtain ⟨hc, hk⟩ := starts_iff.mp hs
  cases hcx : conn.context h with
  | mk r log =>
    rw [hcx] at hc
    subst hc
    cases ha with
    | query queries profiled json =>
      cases hk
      simp only [run, hcx]
      exact sent_runQuery ..
    | range q w json =>
      simp only [run, hcx]
      exact sent_runRange hk ..
    | raw q w =>
      simp only [run, hcx]
      exact sent_runRaw hk ..

/-- A command that cannot start ends with a failure and sends nothing. -/
theorem Fails.exit (hf : Fails h conn window) (ha : Asks command queries window) :
    (run h conn command).exitCode = 1 ∧ (run h conn command).sent = [] := by
  have hnot : ∀ c kind, ¬ ((conn.context h).1 = .ok c ∧
      kindOf window h.surroundings.now = .ok kind) := fun c kind hs =>
    hf.not_starts c kind (starts_iff.mpr hs)
  cases hcx : conn.context h with
  | mk r log =>
    rw [hcx] at hnot
    cases r with
    | error e =>
      rw [run_of_error hcx ha]
      exact ⟨rfl, rfl⟩
    | ok c =>
      have hk : ∀ kind, kindOf window h.surroundings.now ≠ .ok kind := fun kind hk =>
        hnot c kind ⟨rfl, hk⟩
      cases ha with
      | query queries profiled json => exact absurd rfl (hk .instant)
      | range q w json =>
        simp only [run, hcx, runRange]
        split
        · exact ⟨rfl, rfl⟩
        · next hb => exact absurd (map_eq_ok_iff.mpr ⟨_, hb, rfl⟩) (hk _)
      | raw q w =>
        simp only [run, hcx, runRaw]
        split
        · exact ⟨rfl, rfl⟩
        · next hb => exact absurd hb (hk _)

end Command

end MetricsQuery
