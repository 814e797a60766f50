/-
The run command on a file tree, stage by stage: configuration, settings, script, bars, parsing, the run
itself and its output. The first stage that fails decides the exit code. The tree is touched by the last
stage alone, in the place of the output, and a file there has the whole log of the run if it keeps what is
written to it; a run that has failed is logged as well, as far as it came, and then the exit code says that
it failed, whether the log can be written or not. The file is made before anything is written to it, and so
it has changed as well when writing breaks off.
-/
import StrategyScript.Proofs.Command.Steps
import StrategyScript.Proofs.Trade.Csv

namespace StrategyScript.Command

/-! ## Stages -/

/-- The configuration is in order, if one is named. -/
inductive HasConfig (files : FileTree) : Option String → Option Config.Document → Prop
  | none : HasConfig files none none
  | some {path text : String} {d : Config.Document} (ht : files.readText path = .ok text)
    (hd : Config.Document.read text = .ok d) (hv : d.validate = .ok ()) : HasConfig files (some path) (some d)

/-- Configuration and command line together make settings. -/
def HasSettings (files : FileTree) (path : Option String) (o : Config.Overrides) (s : Config.Settings) : Prop :=
  ∃ config, HasConfig files path config ∧ Config.settings config o = .ok s

/-- There are bars of the symbol, well formed and at least one. -/
inductive HasMarket (files : FileTree) (s : Config.Settings) : Market → Prop
  | mk {text : String} {bars : List Bar} (ht : files.readText (barsPath s.dataDir s.symbol) = .ok text)
    (hb : Bar.readTable text = .ok bars) (hv : (Market.ofBars bars).validate = .ok ()) :
    HasMarket files s (.ofBars bars)

/-- All that is read is there. -/
structure Prepared (files : FileTree) (path : Option String) (o : Config.Overrides) (s : Config.Settings)
    (source : String) (market : Market) : Prop where
  settings : HasSettings files path o s
  script : files.readText s.script = .ok source
  market : HasMarket files s market

/-- The script is run, in a new session, and comes to this ending. -/
def RunsScript (files : FileTree) (fuel : Nat) (path : Option String) (o : Config.Overrides) (s : Config.Settings)
    (e : Ending) (t : Session) : Prop :=
  ∃ source market p, Prepared files path o s source market ∧ Parse.source source = .ok p ∧
    (Session.new s.limits).run fuel p market = (e, t)

/-! ## Output -/

/-- The bytes of a trade log. -/
def logBytes (trades : List TradeRecord) : List UInt8 := (TradeRecord.writeCsv trades).toUTF8.data.toList

/-- The bytes can be written to the output: they can be printed, or a file can be made for them and writing
them to it does not break off. -/
def Writable (files : FileTree) (bytes : List UInt8) : Option String → Prop
  | none => files.refusals.print = none
  | some path => ∃ place, files.CanCreate path place ∧ files.Takes place bytes

/-- What comes of writing bytes to the output, and the tree after it. -/
inductive Writes (files : FileTree) (bytes : List UInt8) : Option String → Except FileFault Unit → FileTree → Prop
  | printed (h : files.refusals.print = none) : Writes files bytes none (.ok ()) files
  | unprinted {fault : FileFault} (h : files.refusals.print = some fault) :
      Writes files bytes none (.error fault) files
  | uncreated {path : String} {fault : FileFault} (h : ∀ place, ¬ files.CanCreate path place) :
      Writes files bytes (some path) (.error fault) files
  | cut {path : String} {place : List String} {n : Nat} {r : Except FileFault Unit} {files' : FileTree}
      (hc : files.CanCreate path place) (hw : files.refusals.write place = some (n, r)) (hn : n < bytes.length)
      (h : files.Replaces files' place (bytes.take n)) : Writes files bytes (some path) r files'
  | written {path : String} {place : List String} {files' : FileTree} (hc : files.CanCreate path place)
      (hk : files.Keeps place bytes) (h : files.Replaces files' place bytes) :
      Writes files bytes (some path) (.ok ()) files'

/-- Nothing but the file of the output has changed. If it can be made and keeps all of the bytes, it
consists of them. -/
structure TouchesOnly (files : FileTree) (output : Option String) (bytes : List UInt8) (files' : FileTree) :
    Prop where
  stdout : output = none → files' = files
  content : ∀ path place, output = some path → files.CanCreate path place → files.Keeps place bytes →
    files'.entry? place = some (.file bytes)
  elsewhere : ∀ path place, output = some path → ¬ files.CanCreate path place →
    files'.entry? place = files.entry? place

/-- A file can be made for the output, but writing the bytes to it breaks off. -/
def BreaksOff (files : FileTree) (output : Option String) (bytes : List UInt8) : Prop :=
  ∃ path place, output = some path ∧ files.CanCreate path place ∧ ¬ files.Takes place bytes

/-- The exit code of the run command, and the tree that it leaves behind. -/
inductive RunEnds (files : FileTree) (fuel : Nat) (path : Option String) (o : Config.Overrides) :
    Option Nat → FileTree → Prop
  | config (h : ∀ config, ¬ HasConfig files path config) : RunEnds files fuel path o (some 2) files
  | settings {config : Option Config.Document} {fault : ConfigFault} (hc : HasConfig files path config)
    (h : Config.settings config o = .error fault) : RunEnds files fuel path o (some 2) files
  | script {s : Config.Settings} {fault : FileFault} (hs : HasSettings files path o s)
    (h : files.readText s.script = .error fault) : RunEnds files fuel path o (some 1) files
  | data {s : Config.Settings} {source : String} (hs : HasSettings files path o s)
    (ht : files.readText s.script = .ok source) (h : ∀ market, ¬ HasMarket files s market) :
    RunEnds files fuel path o (some 3) files
  | parse {s : Config.Settings} {source : String} {market : Market} {e : ParseError}
    (hp : Prepared files path o s source market) (h : Parse.source source = .error e) :
    RunEnds files fuel path o (some 4) files
  | failed {s : Config.Settings} {e : RuntimeError} {t : Session} {r : Except FileFault Unit} {files' : FileTree}
    (hr : RunsScript files fuel path o s (.failure e) t)
    (h : Writes files (logBytes t.trades.records) s.output r files') : RunEnds files fuel path o (some 5) files'
  | unwritable {s : Config.Settings} {t : Session} {fault : FileFault} {files' : FileTree}
    (hr : RunsScript files fuel path o s .success t)
    (h : Writes files (logBytes t.trades.records) s.output (.error fault) files') :
    RunEnds files fuel path o (some 1) files'
  | finished {s : Config.Settings} {t : Session} {files' : FileTree} (hr : RunsScript files fuel path o s .success t)
    (h : Writes files (logBytes t.trades.records) s.output (.ok ()) files') : RunEnds files fuel path o (some 0) files'
  | unfinished {s : Config.Settings} {t : Session} (hr : RunsScript files fuel path o s .unfinished t) :
    RunEnds files fuel path o none files

section

variable {files files' : FileTree} {s : Config.Settings}

/-! ## Reading -/

theorem yields_readScript {path source : String} (h : files.readText path = .ok source) :
    Yields (readScript World.host path) files (.ok source) files := by
  have hread := (acts_readText files path).ask
  rw [h] at hread
  exact hread.bind (yields_pure source)

theorem yields_readScript_error {path : String} {fault : FileFault} (h : files.readText path = .error fault) :
    Yields (readScript World.host path) files (.error (.exit 1)) files := by
  have hread := (acts_readText files path).ask
  rw [h] at hread
  exact hread.bind (yields_stop (.file fault.message) _)

theorem acts_readConfig {path text : String} {d : Config.Document} (ht : files.readText path = .ok text)
    (hd : Config.Document.read text = .ok d) : Acts (readConfig World.host path) files (.ok d) files := by
  have hread := acts_readText files path
  rw [ht] at hread
  refine hread.bind ?_
  simp only [hd]
  exact acts_pure _

theorem acts_readConfig_error {path : String}
    (h : ∀ text d, files.readText path = .ok text → Config.Document.read text ≠ .ok d) :
    ∃ fault, Acts (readConfig World.host path) files (.error fault) files := by
  have hread := acts_readText files path
  cases ht : files.readText path with
  | error fault =>
    rw [ht] at hread
    exact ⟨_, hread.bind (acts_pure _)⟩
  | ok text =>
    rw [ht] at hread
    cases hd : Config.Document.read text with
    | error e =>
      refine ⟨.unreadable path (s!"couldn't read {path}: " ++ e.message), hread.bind ?_⟩
      simp only [hd]
      exact acts_pure _
    | ok d => exact absurd hd (h text d ht)

theorem yields_loadConfig {path : Option String} {config : Option Config.Document} (h : HasConfig files path config) :
    Yields (loadConfig World.host path) files (.ok config) files := by
  cases h with
  | none => exact yields_pure none
  | @some path text d ht hd hv =>
    refine (yields_reportLine _).bind ((acts_readConfig ht hd).ask.bind ((yields_orStop_ok d).bind ?_))
    rw [hv]
    refine (yields_orStop_ok ()).bind ?_
    exact (yields_forIn _ fun _ => yields_reportLine _).bind (yields_pure _)

theorem yields_loadConfig_error {path : Option String} (h : ∀ config, ¬ HasConfig files path config) :
    Yields (loadConfig World.host path) files (.error (.exit 2)) files := by
  cases path with
  | none => exact absurd .none (h none)
  | some path =>
    refine (yields_reportLine _).bind ?_
    by_cases hread : ∃ text d, files.readText path = .ok text ∧ Config.Document.read text = .ok d
    · obtain ⟨text, d, ht, hd⟩ := hread
      refine (acts_readConfig ht hd).ask.bind ((yields_orStop_ok d).bind ?_)
      cases hv : d.validate with
      | error fault => exact (yields_orStop_error (.config fault)).stop
      | ok _ => exact absurd (.some ht hd hv) (h (some d))
    · obtain ⟨fault, hread⟩ := acts_readConfig_error fun text d ht hd => hread ⟨text, d, ht, hd⟩
      exact hread.ask.bind (yields_orStop_error (.config fault)).stop

theorem acts_fetchBars {dir symbol text : String} (ht : files.readText (barsPath dir symbol) = .ok text) :
    Acts (fetchBars World.host dir symbol) files ((Bar.readTable text).mapError (.data ·.message)) files := by
  have hread := acts_readText files (barsPath dir symbol)
  rw [ht] at hread
  exact hread.bind (acts_pure _)

theorem yields_loadMarket {market : Market} (h : HasMarket files s market) :
    Yields (loadMarket World.host s) files (.ok market) files := by
  cases h with
  | @mk text bars ht hb hv =>
    have hfetch := acts_fetchBars ht
    rw [hb] at hfetch
    refine hfetch.ask.bind ((yields_orStop_ok bars).bind ?_)
    dsimp only
    rw [hv]
    exact yields_pure _

theorem yields_loadMarket_error (h : ∀ market, ¬ HasMarket files s market) :
    Yields (loadMarket World.host s) files (.error (.exit 3)) files := by
  cases ht : files.readText (barsPath s.dataDir s.symbol) with
  | error fault =>
    have hread := acts_readText files (barsPath s.dataDir s.symbol)
    rw [ht] at hread
    have hfetch : Acts (fetchBars World.host s.dataDir s.symbol) files (.error _) files := hread.bind (acts_pure _)
    exact hfetch.ask.bind (yields_orStop_error (.data _)).stop
  | ok text =>
    have hfetch := acts_fetchBars ht
    cases hb : Bar.readTable text with
    | error fault =>
      rw [hb] at hfetch
      exact hfetch.ask.bind (yields_orStop_error (.data fault.message)).stop
    | ok bars =>
      rw [hb] at hfetch
      refine hfetch.ask.bind ((yields_orStop_ok bars).bind ?_)
      cases hv : (Market.ofBars bars).validate with
      | error e =>
        dsimp only
        rw [hv]
        exact yields_stop (.data e.message) _
      | ok _ => exact absurd (.mk ht hb hv) (h _)

/-! ## Writing -/

theorem yields_reportSummary (p : PositionSummary) : Yields (reportSummary World.host p) files (.ok ()) files :=
  (yields_reportLine _).bind ((yields_reportLine _).bind ((yields_reportLine _).bind
    ((yields_reportLine _).bind (yields_reportLine _))))

theorem yields_reportGlobals (globals : Dictionary Value) :
    Yields (reportGlobals World.host globals) files (.ok ()) files :=
  (yields_reportLine _).bind ((yields_forIn _ fun _ => yields_reportLine _).bind (yields_pure _))

/-- There is a header in every log. -/
theorem logBytes_ne_nil (trades : List TradeRecord) : logBytes trades ≠ [] := by
  intro h
  have hread := TradeRecord.readRecords_writeCsv trades
  have hempty : TradeRecord.writeCsv trades = "" := String.toByteArray_inj.1 (ByteArray.ext (Array.toList_inj.1 h))
  rw [hempty] at hread
  cases hread

/-- Writing the log comes to one of these ends. -/
theorem acts_writeTrades (files : FileTree) (output : Option String) (trades : List TradeRecord) :
    ∃ r files', Acts (writeTrades World.host output trades) files r files' ∧
      Writes files (logBytes trades) output r files' := by
  cases output with
  | none =>
    cases h : files.refusals.print with
    | none => exact ⟨_, files, acts_print h, .printed h⟩
    | some fault => exact ⟨_, files, acts_print_error h, .unprinted h⟩
  | some path =>
    by_cases hc : ∃ place, files.CanCreate path place
    swap
    · obtain ⟨fault, hcreate⟩ := FileTree.create_of_not_canCreate (not_exists.1 hc)
      exact ⟨_, files, (acts_createFile_error hcreate).bind (acts_pure _), .uncreated (not_exists.1 hc)⟩
    obtain ⟨place, hc⟩ := hc
    have hplace := FileTree.resolveNew_ne_nil hc.resolved
    have hcreate := acts_createFile (FileTree.create_of_canCreate hc)
    have hempty := FileTree.replaces_put (t := files) hplace []
    -- the file is there and still empty; what it keeps of the text comes in its place
    by_cases hk : files.Keeps place (logBytes trades)
    · have hwrite : Acts (World.write place (TradeRecord.writeCsv trades)) (files.put place (.file [])) _ _ :=
        acts_write (FileTree.accept_of_keeps hk)
      exact ⟨_, _, hcreate.bind (hwrite.bind ((acts_report _).bind (acts_pure _))),
        .written hc hk (hempty.put hplace _)⟩
    · obtain ⟨n, r, hw, hn, haccept⟩ := FileTree.accept_of_not_keeps hk
      have hwrite : Acts (World.write place (TradeRecord.writeCsv trades)) (files.put place (.file [])) _ _ :=
        acts_write haccept
      refine ⟨r, _, hcreate.bind (hwrite.bind ?_), .cut hc hw hn (hempty.put hplace _)⟩
      cases r with
      | ok _ => exact (acts_report _).bind (acts_pure _)
      | error fault => exact acts_pure _

section

variable {bytes : List UInt8} {output : Option String} {r : Except FileFault Unit}

/-- How writing ends is decided before it. -/
theorem Writes.ok_iff (h : Writes files bytes output r files') : r = .ok () ↔ Writable files bytes output := by
  cases h with
  | printed h => exact iff_of_true rfl h
  | unprinted h => exact iff_of_false nofun fun hw => by cases h.symm.trans hw
  | uncreated h => exact iff_of_false nofun fun ⟨place, hc, _⟩ => h place hc
  | @cut path place n r _ hc hw hn =>
    cases r with
    | ok _ => exact iff_of_true rfl ⟨place, hc, FileTree.takes_of_ok hw⟩
    | error fault =>
      refine iff_of_false nofun fun ⟨place', hc', ht⟩ => ?_
      cases hc.resolved.symm.trans hc'.resolved
      exact FileTree.not_takes hw hn ht
  | written hc hk => exact iff_of_true rfl ⟨_, hc, hk.takes⟩

theorem touchesOnly_of_replaces {path : String} {place : List String} {kept : List UInt8}
    (hc : files.CanCreate path place) (h : files.Replaces files' place kept)
    (hkept : files.Keeps place bytes → kept = bytes) : TouchesOnly files (some path) bytes files' where
  stdout := nofun
  content path' place' hpath hc' hk := by
    cases hpath
    cases hc.resolved.symm.trans hc'.resolved
    rw [h.here, hkept hk]
  elsewhere path' place' hpath hc' := by
    cases hpath
    exact h.elsewhere place' fun heq => hc' (heq ▸ hc)

theorem Writes.touchesOnly (h : Writes files bytes output r files') : TouchesOnly files output bytes files' := by
  cases h with
  | printed | unprinted => exact ⟨fun _ => rfl, nofun, nofun⟩
  | uncreated h =>
    refine ⟨nofun, fun path place hpath hc => ?_, fun _ _ _ _ => rfl⟩
    cases hpath
    exact absurd hc (h place)
  | cut hc hw hn h => exact touchesOnly_of_replaces hc h fun hk => absurd hk (FileTree.not_keeps hw hn)
  | written hc _ h => exact touchesOnly_of_replaces hc h fun _ => rfl

/-- A file that could not be written is as it was, unless writing broke off. -/
theorem Writes.unchanged {fault : FileFault} (h : Writes files bytes output (.error fault) files') :
    files' = files ∨ BreaksOff files output bytes := by
  cases h with
  | unprinted | uncreated => exact .inl rfl
  | cut hc hw hn => exact .inr ⟨_, _, rfl, hc, FileTree.not_takes hw hn⟩

end

theorem yields_finish (r : Report) {files' : FileTree}
    (h : Acts (writeTrades World.host s.output r.trades) files (.ok ()) files') :
    Yields (finish World.host s r) files (.ok ()) files' := by
  refine h.ask.bind ((yields_reportSummary _).bind ?_)
  cases s.printGlobals with
  | true => exact yields_reportGlobals _
  | false => exact yields_pure ()

theorem yields_finish_error (r : Report) {fault : FileFault}
    (h : Acts (writeTrades World.host s.output r.trades) files (.error fault) files') :
    Yields (finish World.host s r) files (.error (.exit 1)) files' :=
  h.ask.bind (yields_stop (.file fault.message) _)

theorem yields_finishFailed (e : RunError) {r : Except FileFault Unit}
    (h : Acts (writeTrades World.host s.output e.trades) files r files') :
    Yields (finishFailed World.host s e) files (.error (.exit 5)) files' := by
  have hend : Yields (do
      reportSummary World.host (.ofTrades e.trades)
      throw (.exit (Fault.runError e).exitCode) : Steps (StateM World) Unit) files' (.error (.exit 5)) files' :=
    (yields_reportSummary _).bind (yields_throw _)
  cases r with
  | ok _ => exact (yields_reportLine _).bind (h.ask.bind hend)
  | error fault => exact (yields_reportLine _).bind (h.ask.bind ((yields_reportLine _).bind hend))

/-! ## All stages -/

variable {fuel : Nat} {path : Option String} {o : Config.Overrides} {source : String} {market : Market}
  {r : Except Stop Unit}

theorem HasSettings.yields (hs : HasSettings files path o s) (h : Yields (runScript World.host fuel s) files r files') :
    Yields (steps World.host fuel (.run path o)) files r files' := by
  obtain ⟨config, hconfig, hsettings⟩ := hs
  refine (yields_loadConfig hconfig).bind ?_
  rw [hsettings]
  exact (yields_orStop_ok s).bind h

/-- What is left to do when all is read. -/
theorem Prepared.yields (hp : Prepared files path o s source market)
    (h : Yields (match Script.run fuel source market s.limits with
      | .finished r => finish World.host s r
      | .runError e => finishFailed World.host s e
      | .syntaxError e => stop World.host (.syntaxError e) (s!"failed to parse {s.script}:\n" ++ e.textIn source)
      | .unfinished => throw .unfinished) files r files') :
    Yields (steps World.host fuel (.run path o)) files r files' :=
  hp.settings.yields ((yields_readScript hp.script).bind ((yields_loadMarket hp.market).bind
    ((yields_reportLine _).bind h)))

/-- What is left to do when the script has been run. -/
theorem RunsScript.yields {e : Ending} {t : Session} (hr : RunsScript files fuel path o s e t)
    (h : Yields (match e with
      | .success => finish World.host s ⟨t.trades.records, t.globals⟩
      | .failure e => finishFailed World.host s ⟨e, t.trades.records⟩
      | .unfinished => throw .unfinished) files r files') :
    Yields (steps World.host fuel (.run path o)) files r files' := by
  obtain ⟨source, market, p, hp, hparse, hrun⟩ := hr
  refine hp.yields ?_
  simp only [Script.run, hparse, hrun]
  cases e <;> exact h

/-- The exit code of a command whose steps end so. -/
def codeOf? : Except Stop Unit → Option Nat
  | .ok () => some 0
  | .error (.exit code) => some code
  | .error .unfinished => none

/-- The rules hold of the command. -/
theorem RunEnds.yields {code : Option Nat} (h : RunEnds files fuel path o code files') :
    ∃ r files'', Yields (steps World.host fuel (.run path o)) files r files'' ∧ codeOf? r = code ∧
      RunEnds files fuel path o code files'' := by
  cases h with
  | config h => exact ⟨_, files, (yields_loadConfig_error h).stop, rfl, .config h⟩
  | @settings config fault hc h =>
    refine ⟨.error (.exit 2), files, (yields_loadConfig hc).bind ?_, rfl, .settings hc h⟩
    rw [h]
    exact (yields_orStop_error (.config fault)).stop
  | script hs h => exact ⟨_, files, hs.yields (yields_readScript_error h).stop, rfl, .script hs h⟩
  | data hs ht h =>
    exact ⟨_, files, hs.yields ((yields_readScript ht).bind (yields_loadMarket_error h).stop), rfl, .data hs ht h⟩
  | @parse s source market e hp h =>
    refine ⟨.error (.exit 4), files, hp.yields ?_, rfl, .parse hp h⟩
    simp only [Script.run, h]
    exact yields_stop (.syntaxError e) _
  | @failed s e t _ _ hr h =>
    obtain ⟨_, files'', hwrite, hwrites⟩ := acts_writeTrades files s.output t.trades.records
    exact ⟨_, files'', hr.yields (yields_finishFailed ⟨e, t.trades.records⟩ hwrite), rfl, .failed hr hwrites⟩
  | @unwritable s t _ _ hr h =>
    obtain ⟨r, files'', hwrite, hwrites⟩ := acts_writeTrades files s.output t.trades.records
    cases r with
    | ok _ => cases h.ok_iff.2 (hwrites.ok_iff.1 rfl)
    | error fault =>
      exact ⟨_, files'', hr.yields (yields_finish_error ⟨t.trades.records, t.globals⟩ hwrite), rfl,
        .unwritable hr hwrites⟩
  | @finished s t _ hr h =>
    obtain ⟨r, files'', hwrite, hwrites⟩ := acts_writeTrades files s.output t.trades.records
    obtain rfl := hwrites.ok_iff.2 (h.ok_iff.1 rfl)
    exact ⟨_, files'', hr.yields (yields_finish ⟨t.trades.records, t.globals⟩ hwrite), rfl, .finished hr hwrites⟩
  | unfinished hr => exact ⟨_, files, hr.yields (yields_throw _), rfl, .unfinished hr⟩

/-- One of the rules applies. -/
theorem exists_runEnds (files : FileTree) (fuel : Nat) (path : Option String) (o : Config.Overrides) :
    ∃ code files', RunEnds files fuel path o code files' := by
  by_cases hconfig : ∃ config, HasConfig files path config
  swap
  · exact ⟨_, _, .config (not_exists.1 hconfig)⟩
  obtain ⟨config, hconfig⟩ := hconfig
  cases hsettings : Config.settings config o with
  | error fault => exact ⟨_, _, .settings hconfig hsettings⟩
  | ok s =>
    have hs : HasSettings files path o s := ⟨config, hconfig, hsettings⟩
    cases ht : files.readText s.script with
    | error fault => exact ⟨_, _, .script hs ht⟩
    | ok source =>
      by_cases hmarket : ∃ market, HasMarket files s market
      swap
      · exact ⟨_, _, .data hs ht (not_exists.1 hmarket)⟩
      obtain ⟨market, hmarket⟩ := hmarket
      have hp : Prepared files path o s source market := ⟨hs, ht, hmarket⟩
      cases hparse : Parse.source source with
      | error e => exact ⟨_, _, .parse hp hparse⟩
      | ok p =>
        cases hrun : (Session.new s.limits).run fuel p market with
        | mk e t =>
          have hr : RunsScript files fuel path o s e t := ⟨source, market, p, hp, hparse, hrun⟩
          cases e with
          | success =>
            obtain ⟨r, files', -, hwrites⟩ := acts_writeTrades files s.output t.trades.records
            cases r with
            | ok _ => exact ⟨_, _, .finished hr hwrites⟩
            | error fault => exact ⟨_, _, .unwritable hr hwrites⟩
          | failure e =>
            obtain ⟨r, files', -, hwrites⟩ := acts_writeTrades files s.output t.trades.records
            exact ⟨_, _, .failed hr hwrites⟩
          | unfinished => exact ⟨_, _, .unfinished hr⟩

theorem acts_execute {c : Command} (h : Yields (steps World.host fuel c) files r files') :
    Acts (execute World.host fuel c) files (codeOf? r) files' := by
  refine Acts.bind h ?_
  rcases r with (code | _) | ⟨⟩ <;> exact acts_pure _

/-- The rules decide the exit code, and what the command leaves behind is in accordance with them. -/
theorem RunEnds.decides {code : Option Nat} {w : World} (h : RunEnds w.files fuel path o code files') :
    ((execute World.host fuel (.run path o)).run w).1 = code ∧
      RunEnds w.files fuel path o code ((execute World.host fuel (.run path o)).run w).2.files := by
  obtain ⟨r, files'', hsteps, rfl, hends⟩ := h.yields
  obtain ⟨w', hw', rfl⟩ := acts_execute hsteps w rfl
  have hrun : (execute World.host fuel (.run path o)).run w = (codeOf? r, w') := hw'
  rw [hrun]
  exact ⟨rfl, hends⟩

/-! ## What follows for the files -/

theorem RunEnds.unchanged {code : Option Nat} (h : RunEnds files fuel path o code files')
    (hcode : code ∈ [some 1, some 2, some 3, some 4]) :
    files' = files ∨ code = some 1 ∧ ∃ s t, RunsScript files fuel path o s .success t ∧
      BreaksOff files s.output (logBytes t.trades.records) ∧
      TouchesOnly files s.output (logBytes t.trades.records) files' := by
  cases h with
  | unwritable hr h => exact h.unchanged.imp_right fun hb => ⟨rfl, _, _, hr, hb, h.touchesOnly⟩
  | failed | finished | unfinished => simp at hcode
  | _ => exact .inl rfl

theorem RunEnds.touchesOnly {code : Option Nat} (h : RunEnds files fuel path o code files')
    (hcode : code ∈ [some 0, some 5]) :
    ∃ s e t, RunsScript files fuel path o s e t ∧
      TouchesOnly files s.output (logBytes t.trades.records) files' := by
  cases h with
  | failed hr h => exact ⟨_, _, _, hr, h.touchesOnly⟩
  | finished hr h => exact ⟨_, _, _, hr, h.touchesOnly⟩
  | _ => simp at hcode

end

/-- The run command on any tree of files and any machine. The first stage that fails decides the exit code.
With one of the codes 1 to 4 the tree is the same as before, unless the file of the output was made and
writing the log to it broke off; and then nothing else has changed. With 0 and 5 the script was run, and
nothing but the file of the output has changed, which has the log of this run if it can be made and keeps
what is written to it. -/
theorem run_touches_only_output (w : World) (fuel : Nat) (path : Option String) (o : Config.Overrides) :
    let r := (execute World.host fuel (.run path o)).run w
    RunEnds w.files fuel path o r.1 r.2.files ∧
      (∀ code files', RunEnds w.files fuel path o code files' → r.1 = code) ∧
      (r.1 ∈ [some 1, some 2, some 3, some 4] → r.2.files = w.files ∨
        r.1 = some 1 ∧ ∃ s t, RunsScript w.files fuel path o s .success t ∧
          BreaksOff w.files s.output (logBytes t.trades.records) ∧
          TouchesOnly w.files s.output (logBytes t.trades.records) r.2.files) ∧
      (r.1 ∈ [some 0, some 5] → ∃ s e t, RunsScript w.files fuel path o s e t ∧
        TouchesOnly w.files s.output (logBytes t.trades.records) r.2.files) := by
  intro r
  obtain ⟨code, files', h⟩ := exists_runEnds w.files fuel path o
  obtain ⟨rfl, hends⟩ := h.decides
  exact ⟨hends, fun code files' h => h.decides.1, hends.unchanged, hends.touchesOnly⟩

/-- A machine without room for another byte. -/
def fullDisk : Refusals :=
  { Refusals.ordinary with write := fun _ => some (0, .error (.other "No space left on device (os error 28)")) }

/-- An empty script and the bars of one day. -/
def oneDay (refusals : Refusals) : World :=
  .ofFiles { (FileTree.empty.plant ["s.vs"] (.file [])).plant ["S.csv"]
    (.file "date,open,high,low,close,volume\n2024-01-02,1,1,1,1,1\n".toUTF8.data.toList) with refusals }

/-- The exceptions are needed. On a full disk the file of the output is made and stays empty, with exit code
1. A file can be made in the place of the null device, but with exit code 0 it does not have the log. -/
theorem log_not_always_kept :
    let o : Config.Overrides := { script := some "s.vs", symbol := some "S" }
    let full := (execute World.host 4 (.run none { o with output := some "out.csv" })).run (oneDay fullDisk)
    let null := (execute World.host 4 (.run none { o with output := some "../dev/null" })).run (oneDay .ordinary)
    (full.1 = some 1 ∧ full.2.files ≠ (oneDay fullDisk).files) ∧
      null.1 = some 0 ∧ (oneDay .ordinary).files.CanCreate "../dev/null" nullDevice ∧
        ∀ trades, null.2.files.entry? nullDevice ≠ some (.file (logBytes trades)) := by
  intro o full null
  have hfull : full.1 = some 1 := by decide +kernel
  have habsent : (oneDay fullDisk).files.entry? ["work", "out.csv"] = none := by decide +kernel
  have hmade : full.2.files.entry? ["work", "out.csv"] = some (.file []) := by decide +kernel
  have hnull : null.1 = some 0 := by decide +kernel
  have hdevice : (oneDay .ordinary).files.CanCreate "../dev/null" nullDevice :=
    ⟨by decide +kernel, by decide +kernel, rfl⟩
  have hempty : null.2.files.entry? nullDevice = some (.file []) := by decide +kernel
  refine ⟨⟨hfull, fun heq => ?_⟩, hnull, hdevice, fun trades heq => ?_⟩
  · rw [heq, habsent] at hmade
    cases hmade
  · rw [hempty, Option.some.injEq, FileEntry.file.injEq] at heq
    exact logBytes_ne_nil trades heq.symm

end StrategyScript.Command
