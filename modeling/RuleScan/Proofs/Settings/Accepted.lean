import RuleScan.Proofs.Settings.Precedence
import RuleScan.Proofs.Settings.SizeLimit

/-!
# Settings that are accepted

Settings are checked when they are loaded and once more before a scan, and what they say is then
read again in other places to set up an engine.

## What is proved

  * `EngineSettings.problem?_eq_none_iff`, `ReportSettings.problem?_eq_none_iff` — the check is
    about four parts of the settings of an engine and one of those of reports, each by itself;
  * `EngineSettings.Accepted.laidOver` — each of the parts of settings that are laid over others is
    that of one of the two, so what is accepted stays accepted;
  * `accepted_settings_build` — settings that are accepted always set up a scanner, so that a scan
    is never given up between the check and its start.

The check reads the command line of the search program with an empty environment, the engine with
that of the run; whether a line is a command does not depend on it (`Command.exists_parse`).
-/

namespace RuleScan

/-! ## Settings of an engine -/

/-- What is set above counts, or what is set below. -/
theorem overlay_eq {α : Type} (below above : Option α) :
    overlay below above = above ∨ overlay below above = below := by
  cases above with
  | none => exact .inr rfl
  | some a => exact .inl rfl

namespace EngineSettings

/-- What is checked of settings. -/
structure Accepted (s : EngineSettings) : Prop where
  concurrency : ∀ n, s.concurrency = some n → 0 ≤ n
  size : ∃ n, s.fileSize = .ok n
  time : ∃ n, s.timeLimit = .ok n
  search : ∀ line, s.searchLine? = some line → ∃ c, Command.parse [] line = .ok c

theorem problem?_eq_none_iff {s : EngineSettings} : s.problem? = none ↔ s.Accepted := by
  have hany : s.concurrency.any (· < 0) = true ↔ ¬ ∀ n, s.concurrency = some n → 0 ≤ n := by
    cases s.concurrency <;> simp
  constructor
  · intro h
    obtain ⟨hsize, hsearch⟩ := of_problem?_eq_none h
    simp only [problem?] at h
    split at h
    · cases h
    · next hconcurrency =>
        rw [hany, not_not] at hconcurrency
        refine ⟨hconcurrency, hsize, ?_, hsearch⟩
        simp only [orElse_eq_none_iff] at h
        cases htime : s.timeLimit with
        | error f => simp [htime] at h
        | ok n => exact ⟨n, rfl⟩
  · rintro ⟨hconcurrency, ⟨size, hsize⟩, ⟨time, htime⟩, hsearch⟩
    rw [problem?, if_neg (by rwa [hany, not_not])]
    simp only [orElse_eq_none_iff, hsize, htime, true_and]
    cases hline : s.searchLine? with
    | none => rfl
    | some line =>
        obtain ⟨c, hc⟩ := hsearch line hline
        simp only [hc]
        rfl

theorem fileSize_congr {a b : EngineSettings} (h : a.maxFileSize = b.maxFileSize) :
    a.fileSize = b.fileSize := by
  rw [fileSize, fileSize, h]

theorem timeLimit_congr {a b : EngineSettings} (h : a.timeout = b.timeout) :
    a.timeLimit = b.timeLimit := by
  rw [timeLimit, timeLimit, h]

/-- The program that is searched with is that of one of two settings, or there is none. -/
theorem searchLine?_laidOver (a b : EngineSettings) :
    (a.laidOver b).searchLine? = a.searchLine? ∨ (a.laidOver b).searchLine? = b.searchLine? := by
  have hcommand : (a.laidOver b).search.bind SearchSettings.command =
      (a.search.bind SearchSettings.command).or (b.search.bind SearchSettings.command) :=
    Settings.bind_overPart (fun _ _ => Settings.overlay_eq_or _ _) rfl a.search b.search
  rw [searchLine?, hcommand, searchLine?, searchLine?]
  cases a.search.bind SearchSettings.command with
  | none => exact .inr rfl
  | some line => exact .inl rfl

theorem Accepted.laidOver {a b : EngineSettings} (ha : a.Accepted) (hb : b.Accepted) :
    (a.laidOver b).Accepted := by
  constructor
  case concurrency =>
    intro n hn
    rcases overlay_eq b.concurrency a.concurrency with h | h
    · exact ha.concurrency n (h.symm.trans hn)
    · exact hb.concurrency n (h.symm.trans hn)
  case size =>
    rcases overlay_eq b.maxFileSize a.maxFileSize with h | h
    · rw [fileSize_congr (a := a.laidOver b) h]
      exact ha.size
    · rw [fileSize_congr (a := a.laidOver b) h]
      exact hb.size
  case time =>
    rcases overlay_eq b.timeout a.timeout with h | h
    · rw [timeLimit_congr (a := a.laidOver b) h]
      exact ha.time
    · rw [timeLimit_congr (a := a.laidOver b) h]
      exact hb.time
  case search =>
    intro line hline
    rcases searchLine?_laidOver a b with h | h
    · exact ha.search line (h.symm.trans hline)
    · exact hb.search line (h.symm.trans hline)

theorem accepted_defaults : defaults.Accepted :=
  problem?_eq_none_iff.mp (Option.isNone_iff_eq_none.mp (by decide +kernel))

end EngineSettings

/-! ## Settings of reports -/

namespace ReportSettings

/-- The format is one that there is, or is left open. -/
def Accepted (s : ReportSettings) : Prop :=
  ∀ name, s.format = some name → name = "" ∨ ∃ f, Format.parse name = .ok f

theorem problem?_eq_none_iff {s : ReportSettings} : s.problem? = none ↔ s.Accepted := by
  rw [problem?]
  split
  · next hformat =>
      exact ⟨fun _ name hname => absurd (hformat.symm.trans hname) nofun, fun _ => rfl⟩
  · next hformat =>
      refine ⟨fun _ name hname => .inl ?_, fun _ => rfl⟩
      exact (Option.some.inj (hformat.symm.trans hname)).symm
  · next name hnamed hformat =>
      split
      · next f hf =>
          refine ⟨fun _ name' hname' => .inr ?_, fun _ => rfl⟩
          rw [← Option.some.inj (hformat.symm.trans hname')]
          exact ⟨f, hf⟩
      · next f hf =>
          refine ⟨nofun, fun h => ?_⟩
          rcases h name hformat with rfl | ⟨g, hg⟩
          · exact absurd rfl hnamed
          · rw [hf] at hg
            cases hg

theorem Accepted.laidOver {a b : ReportSettings} (ha : a.Accepted) (hb : b.Accepted) :
    (a.laidOver b).Accepted := by
  intro name hname
  rcases overlay_eq b.format a.format with h | h
  · exact ha name (h.symm.trans hname)
  · exact hb name (h.symm.trans hname)

theorem accepted_defaults : defaults.Accepted := by
  rintro name ⟨⟩
  exact .inl rfl

end ReportSettings

/-! ## Scanners -/

/-- A step that succeeds, and another one that then succeeds. -/
theorem exists_bind_ok {α β ε : Type} {x : Except ε α} {f : α → Except ε β} {a : α}
    (hx : x = .ok a) (hf : ∃ b, f a = .ok b) : ∃ b, (x >>= f) = .ok b := by
  obtain ⟨b, hb⟩ := hf
  exact ⟨b, bind_eq_ok_iff.mpr ⟨a, hx, hb⟩⟩

namespace Settings

theorem problem?_eq_none_iff {s : Settings} :
    s.problem? = none ↔ s.engine.problem? = none ∧ s.report.problem? = none := by
  rw [problem?, orElse_eq_none_iff, Option.map_eq_none_iff, Option.map_eq_none_iff]

/-- Every key of settings that load is set. -/
theorem isSome_layer_of_load {d : Disk} {root path : String} {asked : Bool} {s : Settings}
    (h : load d root path asked = .ok s) (k : Key) : (s.layer k).isSome = true := by
  obtain ⟨user, project, -, -, hlayer⟩ := exists_layers h
  rw [hlayer]
  show ((Layer.ofFound project k).or ((Layer.ofUser user k).or (some k.default))).isSome = true
  rw [← Option.or_assoc, Option.or_some]
  rfl

end Settings

/-- Settings that are accepted set up a scanner, wherever it runs. -/
theorem Scanner.exists_make {s : Settings} (h : s.problem? = none) (environment : List String)
    (root : String) : ∃ scanner, make environment root s = .ok scanner := by
  obtain ⟨hengine, -⟩ := Settings.problem?_eq_none_iff.mp h
  obtain ⟨size, others, -, hoptions, -⟩ := EngineSettings.exists_options hengine environment
  obtain ⟨limit, hlimit⟩ := (EngineSettings.problem?_eq_none_iff.mp hengine).time
  rw [make, hoptions, hlimit]
  exact ⟨_, rfl⟩

/-- **Settings that are accepted set up a scan.**  Settings without problems have none either when
they are completed with the defaults or laid over other ones without problems.  Their options and
their time limit can be read in any environment.  So once the settings of a scan were checked, there
is a scanner for it, and every key has a value. -/
theorem accepted_settings_build :
    (∀ s : EngineSettings, s.problem? = none → s.withDefaults.problem? = none) ∧
    (∀ a b : EngineSettings, a.problem? = none → b.problem? = none →
      (a.laidOver b).problem? = none) ∧
    (∀ s : ReportSettings, s.problem? = none → s.withDefaults.problem? = none) ∧
    (∀ a b : ReportSettings, a.problem? = none → b.problem? = none →
      (a.laidOver b).problem? = none) ∧
    (∀ s : EngineSettings, s.problem? = none →
      (∀ environment, ∃ options, s.options environment = .ok options) ∧
        ∃ limit, s.timeLimit = .ok limit) ∧
    (∀ s : Settings, s.problem? = none →
      ∀ environment root, ∃ scanner, Scanner.make environment root s = .ok scanner) ∧
    ∀ (w : Cli.World) g args root s, resolveRoot w.disk (Cli.directoryOf args) = .ok root →
      Cli.settingsFor w g root = .ok s → (s.withWishes (Cli.wishesOf g)).problem? = none →
        (∃ scanner, Cli.scannerFor w g args = .ok scanner) ∧
          ∀ k, ((s.withWishes (Cli.wishesOf g)).layer k).isSome = true := by
  refine ⟨?engine, ?overEngine, ?report, ?overReport, ?options, ?scanner, ?scan⟩
  case engine =>
    intro s h
    rw [EngineSettings.problem?_eq_none_iff] at h ⊢
    exact h.laidOver EngineSettings.accepted_defaults
  case overEngine =>
    intro a b ha hb
    rw [EngineSettings.problem?_eq_none_iff] at ha hb ⊢
    exact ha.laidOver hb
  case report =>
    intro s h
    rw [ReportSettings.problem?_eq_none_iff] at h ⊢
    exact h.laidOver ReportSettings.accepted_defaults
  case overReport =>
    intro a b ha hb
    rw [ReportSettings.problem?_eq_none_iff] at ha hb ⊢
    exact ha.laidOver hb
  case options =>
    intro s h
    refine ⟨fun environment => ?_, (EngineSettings.problem?_eq_none_iff.mp h).time⟩
    obtain ⟨size, others, -, hoptions, -⟩ := EngineSettings.exists_options h environment
    exact ⟨_, hoptions⟩
  case scanner =>
    intro s h environment root
    exact Scanner.exists_make h environment root
  case scan =>
    intro w g args root s hroot hsettings h
    constructor
    · obtain ⟨made, hmade⟩ := Scanner.exists_make h w.variables root
      refine exists_bind_ok hroot (exists_bind_ok hsettings ?_)
      dsimp only
      rw [h]
      exact exists_bind_ok hmade ⟨_, rfl⟩
    · intro k
      rw [Settings.layer_withWishes]
      have hload : Settings.load w.disk root (Cli.configPath w g).1 (Cli.configPath w g).2 =
        .ok s := hsettings
      have hset := Settings.isSome_layer_of_load hload k
      show ((Settings.Layer.ofFlags g k).or (s.layer k)).isSome = true
      rw [Option.isSome_or, hset, Bool.or_true]

/-- The settings of a project with a search program and a time limit. -/
def programSettings : EngineSettings :=
  { timeout := some "1m30s", search := some { command := some "rg --no-config '-g' *.go" } }

/-- The settings of a user who is sparing. -/
def sparingSettings : EngineSettings := { concurrency := some 1, maxFileSize := some "64 KiB" }

theorem accepted_settings_build_sample :
    programSettings.problem? = none ∧ sparingSettings.problem? = none ∧
      (∃ options, (programSettings.laidOver sparingSettings).options ["PATH=/bin"] = .ok options) ∧
      ∃ scanner, Scanner.make ["PATH=/bin"] "/"
        { engine := programSettings, report := {}, specPath := "" } = .ok scanner := by
  obtain ⟨-, hover, -, -, hoptions, hscanner, -⟩ := accepted_settings_build
  have hprogram : programSettings.problem? = none :=
    Option.isNone_iff_eq_none.mp (by decide +kernel)
  have hsparing : sparingSettings.problem? = none :=
    Option.isNone_iff_eq_none.mp (by decide +kernel)
  have hlaid := hover programSettings sparingSettings hprogram hsparing
  refine ⟨hprogram, hsparing, (hoptions _ hlaid).1 ["PATH=/bin"], hscanner _ ?_ ["PATH=/bin"] "/"⟩
  exact Settings.problem?_eq_none_iff.mpr ⟨hprogram, rfl⟩

end RuleScan
