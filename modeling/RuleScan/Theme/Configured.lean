import RuleScan.Settings.Files

/-!
# Themes

The colours of reports, of help and of errors.  A theme takes them all from one of a few colour
schemes that are known by name.  A theme that is not known, or that is to be chosen by the screen
when there is none, takes the fallback scheme.
-/

namespace RuleScan

/-- The colours of a scheme for program text, each written as a hash sign and six digits. -/
structure ColorScheme where
  name : String
  text : String
  background : String
  comment : String
  tag : String
  keyword : String
  inserted : String
  deleted : String
  number : String
  error : String
  deriving Repr, DecidableEq, Inhabited

namespace ColorScheme

/-- The scheme in the place of one that is not known. -/
def fallback : ColorScheme :=
  ⟨"swapoff", "#e5e5e5", "#e5e5e5", "#007f7f", "#e5e5e5", "#ffffff", "#e5e5e5", "#e5e5e5",
    "#ffff00", "#e5e5e5"⟩

/-- The known schemes. -/
def all : List ColorScheme :=
  [⟨"github", "#ffffff", "#ffffff", "#57606a", "#0550ae", "#cf222e", "#116329", "#82071e",
      "#0550ae", "#ffffff"⟩,
    ⟨"github-dark", "#e6edf3", "#e6edf3", "#8b949e", "#7ee787", "#ff7b72", "#56d364", "#ffa198",
      "#a5d6ff", "#ffa198"⟩,
    ⟨"monokai", "#f8f8f2", "#f8f8f2", "#75715e", "#f92672", "#66d9ef", "#a6e22e", "#f92672",
      "#ae81ff", "#f8f8f2"⟩,
    ⟨"dracula", "#f8f8f2", "#f8f8f2", "#6272a4", "#ff79c6", "#ff79c6", "#50fa7b", "#ff5555",
      "#bd93f9", "#f8f8f2"⟩,
    ⟨"nord", "#d8dee9", "#d8dee9", "#616e87", "#81a1c1", "#81a1c1", "#a3be8c", "#bf616a",
      "#b48ead", "#bf616a"⟩,
    ⟨"solarized-light", "#586e75", "#586e75", "#93a1a1", "#268bd2", "#859900", "#d33682",
      "#d33682", "#2aa198", "#d33682"⟩,
    fallback]

/-- The scheme of a name. -/
def ofName (name : String) : ColorScheme := (all.find? (·.name = name)).getD fallback

/-- The scheme that a theme's name stands for. -/
def ofTheme (name : String) : ColorScheme :=
  if name = "dark" then ofName "github-dark"
  else if name = "light" then ofName "github"
  else ofName name

end ColorScheme

/-- How a part of an output looks. -/
structure Style where
  /-- Empty for none. -/
  color : String := ""
  bold : Bool := false
  reverse : Bool := false
  deriving Repr, DecidableEq, Inhabited

/-- A theme is what it takes its colours from. -/
structure Theme where
  scheme : ColorScheme
  deriving Repr, DecidableEq, Inhabited

namespace Theme

/-- The theme of a name. -/
def ofName (name : String) : Theme := ⟨.ofTheme name⟩

/-- The theme when none is set. -/
def default : Theme := ofName "github"

/-- Titles. -/
def title (_ : Theme) : Style := { bold := true }

/-- What is less important. -/
def subtle (t : Theme) : Style := { color := t.scheme.comment }

/-- Places in files. -/
def location (t : Theme) : Style := { color := t.scheme.tag }

/-- The ids of rules. -/
def rule (t : Theme) : Style := { color := t.scheme.keyword, bold := true }

/-- The verdict that all is well. -/
def pass (t : Theme) : Style := { color := t.scheme.inserted, bold := true }

/-- The verdict in between. -/
def warning (t : Theme) : Style := { color := t.scheme.number, bold := true }

/-- The verdict that something has to be done. -/
def fail (t : Theme) : Style := { color := t.scheme.deleted, bold := true }

/-- Error messages. -/
def error (t : Theme) : Style := { color := t.scheme.error }

/-- Severities; one that is not known looks like a low one. -/
def severity (t : Theme) : Severity → Style
  | .critical => { t.fail with reverse := true }
  | .high => t.fail
  | .medium => t.warning
  | _ => t.subtle

/-- The styles by name. -/
def styles (t : Theme) : List (String × Style) :=
  [("title", t.title), ("subtle", t.subtle), ("location", t.location), ("rule", t.rule),
    ("pass", t.pass), ("warning", t.warning), ("fail", t.fail), ("error", t.error)]

/-- The colours by name. -/
def palette (t : Theme) : List (String × String) :=
  [("text", t.scheme.text), ("background", t.scheme.background), ("subtle", t.scheme.comment),
    ("accent", t.scheme.tag), ("keyword", t.scheme.keyword), ("error", t.scheme.deleted)]

end Theme

/-- The colours of help and of errors. -/
structure HelpColors where
  /-- The colours of single parts, by name. -/
  parts : List (String × String)
  /-- The header of an error: its text and what is behind it. -/
  errorHeader : String × String
  deriving Repr, DecidableEq, Inhabited

/-- The colours of help in a theme, on a light or a dark background. -/
def Theme.helpColors (t : Theme) (dark : Bool) : HelpColors :=
  let s := t.scheme
  { parts := [("base", s.text), ("title", s.keyword),
      ("codeblock", if dark then "#2f2e36" else "#f1efef"), ("program", s.tag),
      ("command", s.tag), ("dimmedArgument", s.comment), ("comment", s.comment),
      ("flag", s.keyword), ("argument", s.text), ("description", s.text),
      ("flagDefault", s.comment), ("quotedString", s.text), ("errorDetails", s.deleted)]
    errorHeader := ("#fffaf1", s.deleted) }

/-- A style as a value. -/
def Style.toJson (s : Style) : Json :=
  .object [("fg", .string s.color), ("bold", .bool s.bold), ("reverse", .bool s.reverse)]

/-- The colours of help as a value. -/
def HelpColors.toJson (h : HelpColors) : Json :=
  .object (h.parts.map (fun (name, c) => (name, .string c)) ++
    [("errorHeader", Json.strings [h.errorHeader.1, h.errorHeader.2])])

/-! ## The theme of a user

Help and errors have the colours of the theme in the user's configuration.  They are shown before
the configuration is checked, so that one which cannot be read gives the default theme. -/

/-- The theme in a user's configuration. -/
def Theme.ofUser (d : Disk) (env : Environment) : Theme :=
  let config : Except Failure UserConfig := do
    let content ← d.readRegular (ConfigFile.userConfigPath env)
    Document.read (Text.textOf content) {} UserConfig.read
  match config with
  | .ok c => (c.report.theme.map Theme.ofName).getD default
  | .error _ => default

end RuleScan
