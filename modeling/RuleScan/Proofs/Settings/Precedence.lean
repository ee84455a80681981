import RuleScan.Cli.Program
import RuleScan.Proofs.Profile.Loading
import RuleScan.Proofs.Schema.Published
import RuleScan.Proofs.Settings.Nearest

/-!
# Which setting counts

Settings come from four places: the program itself, the configuration of the user, that of the
project, and the flags of the run.  They are nested, parts of them may be missing on either side,
and the defaults are filled in at the bottom BEFORE anything is laid over them.  Told key by key
there is not more to it than a row of LAYERS, each of which sets some keys, and of which the first
one that sets a key counts.

## What is proved

  * `layer_laidOver`, `layer_withProject`, `layer_withWishes` — laying settings over one another is
    laying their layers over one another, search settings included;
  * `UserConfig.load_eq_ok_iff`, `Settings.exists_layers` — settings that load are the defaults, and
    over them what the document of the user sets and what that of the project sets;
  * `EngineSettings.laidOver_assoc`, `EngineSettings.alike_laidOver` — laying over is associative,
    and settings that set nothing are neutral;
  * `settings_precedence` — the flag counts if there is one, else the project, else the user, else
    the default.

The one difference that layers do not show is between no search settings and search settings that
set nothing.  Settings are `Alike` if they differ in nothing else.
-/

namespace RuleScan

open RuleScan.Yaml (Node Reading)

namespace Settings

/-! ## Keys and layers -/

/-- What can be set. -/
inductive Key where
  | concurrency
  | maxFileSize
  | suppressionMarker
  | timeout
  | command
  | strict
  | format
  | highlight
  | theme
  deriving DecidableEq, Repr

/-- What a key is set to. -/
def Key.Value : Key → Type
  | .concurrency => Int
  | .strict => Bool
  | _ => String

/-- The value of a key that is set nowhere. -/
def Key.default : (k : Key) → k.Value
  | .concurrency => (0 : Int)
  | .maxFileSize => "1.0 MiB"
  | .suppressionMarker => "guardrail:ignore"
  | .timeout => "0s"
  | .command => ""
  | .strict => false
  | .format => ""
  | .highlight => "monokai"
  | .theme => "auto"

/-- The keys that are set somewhere, with their values. -/
abbrev Layer := (k : Key) → Option k.Value

/-- What is set above, and else what is set below. -/
def Layer.over (above below : Layer) : Layer := fun k => (above k).or (below k)

/-- A layer that sets every key. -/
def Layer.defaults : Layer := fun k => some k.default

/-- What settings of an engine and of reports set. -/
def Layer.of (e : EngineSettings) (r : ReportSettings) : Layer
  | .concurrency => e.concurrency
  | .maxFileSize => e.maxFileSize
  | .suppressionMarker => e.suppressionMarker
  | .timeout => e.timeout
  | .command => e.search.bind SearchSettings.command
  | .strict => e.search.bind SearchSettings.strict
  | .format => r.format
  | .highlight => r.highlight
  | .theme => r.theme

/-- What the configuration of a user sets. -/
def Layer.ofUser (c : UserConfig) : Layer := .of c.engine c.report

/-- What the configuration of a project sets; it may leave out everything. -/
def Layer.ofProject (p : ProjectConfig) : Layer := .of (p.engine.getD {}) (p.report.getD {})

/-- What the flags of a scan set. -/
def Layer.ofFlags (g : Cli.Given) : Layer
  | .command => g.text? "search-cmd"
  | .strict => g.switch? "strict-search"
  | .concurrency => g.whole? "concurrency"
  | .timeout => g.text? "timeout"
  | .format => g.text? "format"
  | .maxFileSize | .suppressionMarker | .highlight | .theme => none

/-- What is in effect. -/
def layer (s : Settings) : Layer := .of s.engine s.report

/-! ## Layers over layers -/

theorem overlay_eq_or {α : Type} (below above : Option α) :
    overlay below above = above.or below := by
  cases above <;> rfl

/-- A part of search settings does not depend on whether the rest is there. -/
theorem bind_overPart {α : Type} {get : SearchSettings → Option α}
    (hget : ∀ a b, get (SearchSettings.laidOver a b) = (get a).or (get b)) (hnone : get {} = none)
    (above below : Option SearchSettings) :
    (overPart SearchSettings.laidOver {} above below).bind get =
      (above.bind get).or (below.bind get) := by
  cases above with
  | none => rfl
  | some a =>
      show get (a.laidOver (below.getD {})) = (get a).or (below.bind get)
      rw [hget]
      cases below with
      | none => rw [Option.getD_none, hnone, Option.bind_none]
      | some b => rfl

/-- **Settings over others are layers over others.** -/
theorem layer_laidOver (e e' : EngineSettings) (r r' : ReportSettings) :
    Layer.of (e.laidOver e') (r.laidOver r') = (Layer.of e r).over (Layer.of e' r') := by
  funext k
  cases k with
  | command => exact bind_overPart (fun _ _ => overlay_eq_or _ _) rfl _ _
  | strict => exact bind_overPart (fun _ _ => overlay_eq_or _ _) rfl _ _
  | _ => exact overlay_eq_or _ _

theorem layer_defaults :
    Layer.of EngineSettings.defaults ReportSettings.defaults = Layer.defaults := by
  funext k
  cases k <;> rfl

theorem layer_withProject (c : UserConfig) (p : ProjectConfig) :
    Layer.ofUser (c.withProject p) = (Layer.ofProject p).over (Layer.ofUser c) :=
  layer_laidOver _ _ _ _

/-- What a run asks for is laid over everything else. -/
theorem layer_withWishes (s : Settings) (g : Cli.Given) :
    (s.withWishes (Cli.wishesOf g)).layer = (Layer.ofFlags g).over s.layer := by
  have hlaid : (s.withWishes (Cli.wishesOf g)).layer = Layer.of
      (EngineSettings.laidOver
        { concurrency := g.whole? "concurrency"
          timeout := g.text? "timeout"
          search := some { command := g.text? "search-cmd", strict := g.switch? "strict-search" } }
        s.engine)
      (ReportSettings.laidOver { format := g.text? "format" } s.report) := rfl
  rw [hlaid, layer_laidOver]
  refine congrArg (Layer.over · s.layer) ?_
  funext k
  cases k <;> rfl

end Settings

/-! ## Settings that set nothing -/

/-- Parts that may be missing are laid over one another as they would be if none was. -/
theorem overPart_assoc {α : Type} {lay : α → α → α} {empty : α}
    (hassoc : ∀ a b c, lay (lay a b) c = lay a (lay b c)) (hempty : ∀ a, lay a empty = a)
    (a b c : Option α) :
    overPart lay empty (overPart lay empty a b) c =
      overPart lay empty a (overPart lay empty b c) := by
  cases a with
  | none => rfl
  | some a =>
      cases b with
      | none =>
          show some (lay (lay a empty) (c.getD empty)) = some (lay a (c.getD empty))
          rw [hempty]
      | some b => exact congrArg some (hassoc a b (c.getD empty))

namespace SearchSettings

theorem laidOver_assoc (a b c : SearchSettings) :
    (a.laidOver b).laidOver c = a.laidOver (b.laidOver c) := by
  simp only [laidOver, Settings.overlay_eq_or, Option.or_assoc]

theorem laidOver_blank (a : SearchSettings) : a.laidOver {} = a := by
  simp only [laidOver, Settings.overlay_eq_or, Option.or_none]

end SearchSettings

namespace EngineSettings

/-- Laying over is associative: it does not matter which two of three settings come first. -/
theorem laidOver_assoc (a b c : EngineSettings) :
    (a.laidOver b).laidOver c = a.laidOver (b.laidOver c) := by
  simp only [laidOver, Settings.overlay_eq_or, Option.or_assoc,
    overPart_assoc SearchSettings.laidOver_assoc SearchSettings.laidOver_blank]

/-- The settings without a part for searches, if that sets nothing. -/
def withoutBlankSearch (s : EngineSettings) : EngineSettings :=
  { s with search := s.search.filter (· ≠ {}) }

/-- Settings that differ at most in whether there is a part for searches that sets nothing. -/
def Alike (a b : EngineSettings) : Prop := a.withoutBlankSearch = b.withoutBlankSearch

/-- Settings that set nothing have no part for searches, or one that sets nothing. -/
theorem eq_of_alike_blank {s : EngineSettings} (h : s.Alike {}) :
    s = {} ∨ s = { search := some {} } := by
  obtain ⟨concurrency, maxFileSize, suppressionMarker, timeout, search⟩ := s
  simp only [Alike, withoutBlankSearch, EngineSettings.mk.injEq] at h
  obtain ⟨rfl, rfl, rfl, rfl, hsearch⟩ := h
  cases search with
  | none => exact .inl rfl
  | some search =>
      by_cases hblank : search = {}
      · rw [hblank]
        exact .inr rfl
      · simp [hblank] at hsearch

theorem blank_laidOver (a : EngineSettings) : laidOver {} a = a := rfl

theorem laidOver_blank (a : EngineSettings) : a.laidOver {} = a := by
  obtain ⟨concurrency, maxFileSize, suppressionMarker, timeout, search⟩ := a
  simp only [laidOver, Settings.overlay_eq_or, Option.or_none]
  cases search with
  | none => rfl
  | some search => rw [overPart, Option.getD_none, SearchSettings.laidOver_blank]

/-- A part for searches that sets nothing changes nothing, unless there was none. -/
theorem alike_blankSearch (a : EngineSettings) :
    Alike (laidOver { search := some {} } a) a ∧ Alike (a.laidOver { search := some {} }) a := by
  obtain ⟨concurrency, maxFileSize, suppressionMarker, timeout, search⟩ := a
  cases search with
  | none =>
      simp only [Alike, laidOver, Settings.overlay_eq_or, Option.or_none]
      exact ⟨rfl, rfl⟩
  | some search =>
      have hbelow : overPart SearchSettings.laidOver {} (some search) (some {}) = some search :=
        congrArg some (SearchSettings.laidOver_blank search)
      simp only [Alike, laidOver, Settings.overlay_eq_or, Option.or_none, hbelow]
      exact ⟨rfl, trivial⟩

/-- **Settings that set nothing are neutral**, above and below. -/
theorem alike_laidOver {unset : EngineSettings} (h : unset.Alike {}) (a : EngineSettings) :
    Alike (unset.laidOver a) a ∧ Alike (a.laidOver unset) a := by
  rcases eq_of_alike_blank h with rfl | rfl
  · rw [blank_laidOver, laidOver_blank]
    exact ⟨rfl, rfl⟩
  · exact alike_blankSearch a

end EngineSettings

/-! ## Documents -/

/-- What is done with everything that is read can be done when all is read. -/
theorem Yaml.readDocument_map {α β : Type} (f : α → β) (source : String) (read : Node → Reading α) :
    readDocument source (fun n s => (read n s).map f) = (readDocument source read).map f := by
  unfold readDocument
  split
  · rfl
  · next loaded _ =>
      split
      · rfl
      · next n _ _ _ =>
          dsimp only
          cases read n ⟨loaded.tokens, loaded.anchors⟩ <;> rfl

theorem Document.read_map {α β : Type} (f : α → β) (text : String) (a : α)
    (read : Node → Reading α) : Document.read text (f a) (fun n s => (read n s).map f) =
      (Document.read text a read).map f := by
  rw [Document.read_eq, Document.read_eq, Yaml.readDocument_map]
  rcases Yaml.readDocument text read with (_ | _ | _) | b <;> rfl

theorem checked_eq_ok_iff {α : Type} {a b : α} {problems : List Failure} :
    checked a problems = .ok b ↔ b = a ∧ problems = [] := by
  cases problems with
  | nil => exact ⟨fun h => ⟨(Except.ok.inj h).symm, rfl⟩, fun h => congrArg Except.ok h.1.symm⟩
  | cons f problems => exact ⟨nofun, fun h => nomatch h.2⟩

namespace UserConfig

/-- The configuration of a user who sets nothing. -/
def blank : UserConfig := { engine := {}, report := {} }

/-- A configuration with the defaults where nothing is set. -/
def withDefaults (c : UserConfig) : UserConfig :=
  { engine := c.engine.withDefaults, report := c.report.withDefaults }

/-- Reads what a configuration sets, and no defaults. -/
def readWritten (n : Node) : Reading UserConfig := do
  let fs ← Reading.fields n
  let engine ← Reading.field fs "Config" "Engine" "engine" {} EngineSettings.read
  let report ← Reading.field fs "Config" "Report" "report" {} ReportSettings.read
  return { engine, report }

/-- The defaults are filled in when everything is read. -/
theorem read_eq (n : Node) : read n = fun s => (readWritten n s).map withDefaults := by
  funext s
  dsimp only [read, readWritten, bind, pure]
  cases Reading.fields n s with
  | error e => rfl
  | ok fs =>
      dsimp only
      cases Reading.field fs "Config" "Engine" "engine" {} EngineSettings.read s with
      | error e => rfl
      | ok engine =>
          dsimp only
          cases Reading.field fs "Config" "Report" "report" {} ReportSettings.read s <;> rfl

/-- A configuration that loads fits the schema, and is what its document sets with the defaults
where that sets nothing, and has no problems. -/
theorem load_eq_ok_iff {text : String} {c : UserConfig} : load text = .ok c ↔
    Document.check validator text = .ok () ∧
      ∃ w, Document.read text blank readWritten = .ok w ∧ c = w.withDefaults ∧ c.problems = [] := by
  have hread : Document.read text {} read =
      (Document.read text blank readWritten).map withDefaults := by
    rw [← Document.read_map, ← funext read_eq]
    rfl
  constructor
  · intro h
    obtain ⟨c', hdecode, hchecked⟩ := bind_eq_ok_iff.mp h
    obtain ⟨_, hcheck, hdecode⟩ := bind_eq_ok_iff.mp hdecode
    obtain ⟨rfl, hproblems⟩ := checked_eq_ok_iff.mp hchecked
    rw [hread] at hdecode
    cases hwritten : Document.read text blank readWritten with
    | error f =>
        rw [hwritten] at hdecode
        cases hdecode
    | ok w =>
        rw [hwritten] at hdecode
        exact ⟨hcheck, w, rfl, (Except.ok.inj hdecode).symm, hproblems⟩
  · rintro ⟨hcheck, w, hwritten, rfl, hproblems⟩
    rw [hwritten] at hread
    refine bind_eq_ok_iff.mpr ⟨w.withDefaults, ?_, checked_eq_ok_iff.mpr ⟨rfl, hproblems⟩⟩
    exact bind_eq_ok_iff.mpr ⟨(), hcheck, hread⟩

end UserConfig

/-- The same for the configuration of a project, which has no defaults. -/
theorem ProjectConfig.load_eq_ok_iff {text : String} {c : ProjectConfig} : load text = .ok c ↔
    Document.check validator text = .ok () ∧ Document.read text {} read = .ok c ∧
      c.problems = [] := by
  constructor
  · intro h
    obtain ⟨c', hdecode, hchecked⟩ := bind_eq_ok_iff.mp h
    obtain ⟨_, hcheck, hread⟩ := bind_eq_ok_iff.mp hdecode
    obtain ⟨rfl, hproblems⟩ := checked_eq_ok_iff.mp hchecked
    exact ⟨hcheck, hread, hproblems⟩
  · rintro ⟨hcheck, hread, hproblems⟩
    exact bind_eq_ok_iff.mpr ⟨c, bind_eq_ok_iff.mpr ⟨(), hcheck, hread⟩,
      checked_eq_ok_iff.mpr ⟨rfl, hproblems⟩⟩

namespace Settings

theorem readFile_eq_ok_iff {α : Type} {d : Disk} {what path : String}
    {load : String → Except Failure α} {a : α} : readFile d what path load = .ok a ↔
      ∃ content, d.readRegular path = .ok content ∧ load (Text.textOf content) = .ok a := by
  rw [readFile, bind_eq_ok_iff]
  simp only [mapError_eq_ok_iff]

/-- What the configuration of a user sets, if it is there; nobody is made to have one. -/
inductive UserSets (d : Disk) (path : String) (asked : Bool) : UserConfig → Prop
  | missing : d.stat path = .error .notExist → asked = false → UserSets d path asked .blank
  | written {content : Text.Bytes} {w : UserConfig} : d.readRegular path = .ok content →
      Document.read (Text.textOf content) .blank UserConfig.readWritten = .ok w →
      UserSets d path asked w

/-- The configuration of a user is what it sets, with the defaults where it sets nothing. -/
theorem userSets_of_loadUser {d : Disk} {path : String} {asked : Bool} {c : UserConfig}
    (h : loadUser d path asked = .ok c) : ∃ w, UserSets d path asked w ∧ c = w.withDefaults := by
  have hfile : readFile d "configuration" path UserConfig.load = .ok c →
      ∃ w, UserSets d path asked w ∧ c = w.withDefaults := by
    intro h
    obtain ⟨content, hcontent, hload⟩ := readFile_eq_ok_iff.mp h
    obtain ⟨-, w, hwritten, hdefaults, -⟩ := UserConfig.load_eq_ok_iff.mp hload
    exact ⟨w, .written hcontent hwritten, hdefaults⟩
  rw [loadUser] at h
  split at h
  · next hmissing =>
      split at h
      · exact hfile h
      · next hasked =>
          cases h
          exact ⟨.blank, .missing hmissing (Bool.eq_false_iff.mpr hasked), rfl⟩
  · exact hfile h

/-- What the configuration of a project sets, if there is one. -/
def Layer.ofFound (project : Option (String × ProjectConfig)) : Layer :=
  (project.map fun found => ofProject found.2).getD fun _ => none

/-- What is loaded: what the project sets over what the user sets over the defaults. -/
theorem exists_layers {d : Disk} {root path : String} {asked : Bool} {s : Settings}
    (h : load d root path asked = .ok s) :
    ∃ user project, UserSets d path asked user ∧ loadProject d root = .ok project ∧
      s.layer = (Layer.ofFound project).over ((Layer.ofUser user).over .defaults) := by
  obtain ⟨c, hc, h⟩ := bind_eq_ok_iff.mp h
  obtain ⟨project, hproject, h⟩ := bind_eq_ok_iff.mp h
  cases h
  obtain ⟨user, huser, rfl⟩ := userSets_of_loadUser hc
  have hdefaults : Layer.ofUser user.withDefaults = (Layer.ofUser user).over .defaults := by
    rw [← layer_defaults]
    exact layer_laidOver _ _ _ _
  refine ⟨user, project, huser, hproject, ?_⟩
  rw [← hdefaults]
  cases project with
  | none => rfl
  | some found => exact layer_withProject _ _

end Settings

/-- **The flag counts, else the project, else the user, else the default.**  This is so for every
key of settings that load, whatever the flags are.  A project that does not set a key, for instance
one of the two keys for searches, leaves it as it is.  Laying settings over one another is
associative, and settings that set nothing change nothing, up to an empty part for searches. -/
theorem settings_precedence {d : Disk} {root path : String} {asked : Bool} {s : Settings}
    (h : Settings.load d root path asked = .ok s) :
    (∃ user project, Settings.UserSets d path asked user ∧
      Settings.loadProject d root = .ok project ∧
      ∀ (g : Cli.Given) (k : Settings.Key), (s.withWishes (Cli.wishesOf g)).layer k =
        some ((((Settings.Layer.ofFlags g k).or (Settings.Layer.ofFound project k)).or
          (Settings.Layer.ofUser user k)).getD k.default)) ∧
    (∀ (c : UserConfig) (p : ProjectConfig) (k : Settings.Key),
      Settings.Layer.ofProject p k = none →
        Settings.Layer.ofUser (c.withProject p) k = Settings.Layer.ofUser c k) ∧
    (∀ a b c : EngineSettings, (a.laidOver b).laidOver c = a.laidOver (b.laidOver c)) ∧
    ∀ unset : EngineSettings, unset.Alike {} →
      ∀ a, EngineSettings.Alike (unset.laidOver a) a ∧
        EngineSettings.Alike (a.laidOver unset) a := by
  refine ⟨?counts, ?sibling, EngineSettings.laidOver_assoc, ?neutral⟩
  case counts =>
    obtain ⟨user, project, huser, hproject, hlayer⟩ := Settings.exists_layers h
    refine ⟨user, project, huser, hproject, fun g k => ?_⟩
    rw [Settings.layer_withWishes, hlayer]
    show (Settings.Layer.ofFlags g k).or ((Settings.Layer.ofFound project k).or
      ((Settings.Layer.ofUser user k).or (some k.default))) = _
    rw [← Option.or_assoc, ← Option.or_assoc, Option.or_some]
  case sibling =>
    intro c p k hk
    rw [Settings.layer_withProject]
    show (Settings.Layer.ofProject p k).or (Settings.Layer.ofUser c k) = _
    rw [hk, Option.none_or]
  case neutral =>
    intro unset hunset a
    exact EngineSettings.alike_laidOver hunset a

/-! ## A user, a project and a run -/

namespace Schema

/-- Whether evaluation finds that a schema of settings accepts a value.  The schema is put in order
first, and its one resource is named. -/
def settingsAccept (home : String) (r : Record) (v : Json) : Bool :=
  let schema := listed published settingsRecords home r
  let resources := [{ pointer := [], address := "file:///" ++ home, draft := .of2020 }]
  let lib := libraryOf schema resources
  let names := needed settingsRecords settingsRecords.length r
  settingsRecords.all (fun m => names.contains m.name) &&
    ((Sheet.make? Validator.home schema).map Sheet.resources = some resources) &&
    (lib.sheet.resolve? "" = some ⟨Validator.home, []⟩) &&
    (Validator.validate ⟨lib, lib.schemaAt []⟩ v).toOption = some ()

theorem validate_of_settingsAccept {home : String} {r : Record} {v : Json}
    (h : settingsAccept home r v = true) :
    (Validator.of (document published settingsRecords home r) "").validate v = .ok () := by
  simp only [settingsAccept, Bool.and_eq_true, List.all_eq_true, decide_eq_true_eq] at h
  obtain ⟨⟨⟨hneeded, hmake⟩, hway⟩, haccept⟩ := h
  have hsorted : settingsRecords.Pairwise fun a b => decide (a.name ≤ b.name) = true := by
    simp only [settingsRecords, List.pairwise_cons]
    decide
  rw [document_eq hneeded hsorted, Validator.of_eq hmake hway]
  exact eq_ok_of_toOption haccept

end Schema

namespace Settings

/-- The document of a user who has a program for searches. -/
def userText : String := "engine:\n  timeout: 2m\n  search:\n    command: rg\n"

/-- What the document sets. -/
def userSets : UserConfig :=
  { UserConfig.blank with
    engine := { timeout := some "2m", search := some { command := some "rg" } } }

/-- The document of a project that wants searches to be strict, and has less time. -/
def projectText : String := "engine:\n  timeout: 1m\n  search:\n    strict: true\n"

/-- What the document sets. -/
def projectSets : ProjectConfig :=
  { engine := some { timeout := some "1m", search := some { strict := some true } } }

/-- What can be found out about the two documents by evaluation. -/
theorem evaluated_documents :
    (∃ v, (Yaml.read userText).toOption.any (·.alike v) = true ∧
      Schema.settingsAccept (Schema.documentHome ++ "/configs") Schema.configRecord v = true ∧
      (Yaml.readDocument userText UserConfig.readWritten).toOption = some userSets ∧
      userSets.withDefaults.problems.isEmpty = true) ∧
    ∃ v, (Yaml.read projectText).toOption.any (·.alike v) = true ∧
      Schema.settingsAccept (Schema.documentHome ++ "/projectconfigs") Schema.projectRecord v =
        true ∧
      (Yaml.readDocument projectText ProjectConfig.read).toOption = some projectSets ∧
      projectSets.problems.isEmpty = true := by
  have huser : userText.toList = _ := String.toList_ofList
  have hproject : projectText.toList = _ := String.toList_ofList
  refine ⟨⟨.object [("engine", userSets.engine.toJson)], ?_⟩,
    .object [("engine", (projectSets.engine.getD {}).toJson)], ?_⟩
  · rewrite [Yaml.read, Yaml.readDocument, Yaml.load, Yaml.parse, Yaml.tokenize_of_toList huser]
    decide +kernel
  · rewrite [Yaml.read, Yaml.readDocument, Yaml.load, Yaml.parse, Yaml.tokenize_of_toList hproject]
    decide +kernel

theorem read_userText :
    Document.read userText UserConfig.blank UserConfig.readWritten = .ok userSets := by
  obtain ⟨⟨v, hvalue, -, hread, -⟩, -⟩ := evaluated_documents
  exact (Document.read_eq_ok_iff (Yaml.read_eq_ok hvalue)).mpr (eq_ok_of_toOption hread)

theorem load_userText : UserConfig.load userText = .ok userSets.withDefaults := by
  obtain ⟨⟨v, hvalue, haccept, -, hproblems⟩, -⟩ := evaluated_documents
  refine UserConfig.load_eq_ok_iff.mpr
    ⟨?_, userSets, read_userText, rfl, List.isEmpty_iff.mp hproblems⟩
  exact (Document.check_eq_ok_iff (Yaml.read_eq_ok hvalue)).mpr
    (Schema.validate_of_settingsAccept haccept)

theorem load_projectText : ProjectConfig.load projectText = .ok projectSets := by
  obtain ⟨-, v, hvalue, haccept, hread, hproblems⟩ := evaluated_documents
  have hvalue := Yaml.read_eq_ok hvalue
  refine ProjectConfig.load_eq_ok_iff.mpr ⟨?_, ?_, List.isEmpty_iff.mp hproblems⟩
  · exact (Document.check_eq_ok_iff hvalue).mpr (Schema.validate_of_settingsAccept haccept)
  · exact (Document.read_eq_ok_iff hvalue).mpr (eq_ok_of_toOption hread)

/-- A disk with the two documents. -/
def sharedDisk : Disk :=
  { root := .directory [("config.yaml", .file (Text.bytesOf userText)),
      ("p", .directory [(".guardrail.yaml", .file (Text.bytesOf projectText))])] }

theorem tidy_sharedDisk : sharedDisk.root.Tidy := by
  have hp : (Disk.Node.directory [(".guardrail.yaml", .file (Text.bytesOf projectText))]).Tidy :=
    .directory (by decide) (List.pairwise_singleton _ _) (by simp [Disk.Node.Tidy.file])
  exact .directory (by decide) (by decide) (by simp [hp, Disk.Node.Tidy.file])

theorem stat_userFile : sharedDisk.stat "/config.yaml" = .ok (.file (Text.bytesOf userText)) :=
  Disk.stat_names ["config.yaml"] tidy_sharedDisk rfl (by decide) nofun

theorem readRegular_userFile :
    sharedDisk.readRegular "/config.yaml" = .ok (Text.bytesOf userText) := by
  rw [Disk.readRegular, stat_userFile]

theorem stat_projectFile :
    sharedDisk.stat "/p/.guardrail.yaml" = .ok (.file (Text.bytesOf projectText)) :=
  Disk.stat_names ["p", ".guardrail.yaml"] tidy_sharedDisk rfl (by decide) nofun

/-- The configuration of the project is in the first directory that is looked through. -/
theorem findProject_sharedDisk :
    ConfigFile.findProject sharedDisk "/p" = .ok (some "/p/.guardrail.yaml") := by
  have hpath : Path.absolute sharedDisk.directory "/p" = "/p" := by decide
  have hupward : Path.upward "/p" = ["/p", "/"] := by decide
  have hroot : sharedDisk.stat "/p" =
      .ok (.directory [(".guardrail.yaml", .file (Text.bytesOf projectText))]) :=
    Disk.stat_names ["p"] tidy_sharedDisk rfl (by decide) nofun
  have hfirst : ConfigFile.projectNames.map (fun name => Path.join ["/p", name]) =
      ["/p/.guardrail.yaml", "/p/.guardrail.yml"] := by
    decide
  have hhas : sharedDisk.has "/p/.guardrail.yaml" = true := by
    rw [Disk.has, stat_projectFile]
  rw [ConfigFile.findProject, ConfigFile.find_eq (hpath.symm ▸ hroot), ConfigFile.startOf, hpath]
  simp only [Disk.Node.isDirectory, if_true, hupward, ConfigFile.searchUp, ConfigFile.findIn,
    hfirst, List.find?_cons_of_pos hhas, Except.mapError]

theorem loadProject_sharedDisk :
    loadProject sharedDisk "/p" = .ok (some ("/p/.guardrail.yaml", projectSets)) := by
  have hread : sharedDisk.readRegular "/p/.guardrail.yaml" = .ok (Text.bytesOf projectText) := by
    rw [Disk.readRegular, stat_projectFile]
  have hfile : readFile sharedDisk "project configuration" "/p/.guardrail.yaml"
      ProjectConfig.load = .ok projectSets := by
    refine readFile_eq_ok_iff.mpr ⟨_, hread, ?_⟩
    rw [Text.textOf_bytesOf]
    exact load_projectText
  refine bind_eq_ok_iff.mpr ⟨_, findProject_sharedDisk, ?_⟩
  exact bind_eq_ok_iff.mpr ⟨projectSets, hfile, rfl⟩

theorem loadUser_sharedDisk (asked : Bool) :
    loadUser sharedDisk "/config.yaml" asked = .ok userSets.withDefaults := by
  have hfile : readFile sharedDisk "configuration" "/config.yaml" UserConfig.load =
      .ok userSets.withDefaults := by
    refine readFile_eq_ok_iff.mpr ⟨_, readRegular_userFile, ?_⟩
    rw [Text.textOf_bytesOf]
    exact load_userText
  rw [loadUser, stat_userFile]
  exact hfile

/-- What the user sets is what the document says. -/
theorem eq_of_userSets_sharedDisk {asked : Bool} {w : UserConfig}
    (h : UserSets sharedDisk "/config.yaml" asked w) : w = userSets := by
  cases h with
  | missing hmissing =>
      rw [stat_userFile] at hmissing
      cases hmissing
  | written hcontent hwritten =>
      rw [readRegular_userFile] at hcontent
      obtain rfl := Except.ok.inj hcontent
      rw [Text.textOf_bytesOf, read_userText] at hwritten
      exact (Except.ok.inj hwritten).symm

theorem load_sharedDisk : load sharedDisk "/p" "/config.yaml" false =
    .ok (combine "/p" userSets.withDefaults (some ("/p/.guardrail.yaml", projectSets))) := by
  refine bind_eq_ok_iff.mpr ⟨_, loadUser_sharedDisk false, ?_⟩
  exact bind_eq_ok_iff.mpr ⟨_, loadProject_sharedDisk, rfl⟩

end Settings

/-- The time is the flag's if there is one, and else the project's and not the user's.  The project
decides that searches are strict, and leaves the user the program for them.  The theme is set by
nobody. -/
theorem settings_precedence_sample :
    ∃ s, Settings.load Settings.sharedDisk "/p" "/config.yaml" false = .ok s ∧
      (s.withWishes (Cli.wishesOf [⟨"timeout", .text "5s", true⟩])).layer .timeout = some "5s" ∧
      (s.withWishes (Cli.wishesOf [])).layer .timeout = some "1m" ∧
      (s.withWishes (Cli.wishesOf [])).layer .strict = some true ∧
      (s.withWishes (Cli.wishesOf [])).layer .command = some "rg" ∧
      (s.withWishes (Cli.wishesOf [])).layer .theme = some "auto" ∧
      Settings.Layer.ofUser (Settings.userSets.withProject Settings.projectSets) .command =
        some "rg" := by
  obtain ⟨⟨user, project, huser, hproject, hlayer⟩, hsibling, -⟩ :=
    settings_precedence Settings.load_sharedDisk
  rw [Settings.loadProject_sharedDisk] at hproject
  cases hproject
  obtain rfl : user = Settings.userSets := Settings.eq_of_userSets_sharedDisk huser
  refine ⟨_, Settings.load_sharedDisk, hlayer _ .timeout, hlayer [] .timeout, hlayer [] .strict,
    hlayer [] .command, hlayer [] .theme, ?_⟩
  exact hsibling Settings.userSets Settings.projectSets .command rfl

end RuleScan
