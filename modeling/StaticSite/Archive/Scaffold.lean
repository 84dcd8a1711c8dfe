import StaticSite.Json.Printer
import StaticSite.Site.Options
import StaticSite.Text.Lines
import StaticSite.Text.LowerCase

/-! # Files around a site

The files that make a project of a site: a manifest, a readme, a list of what version control
ignores, and the configuration of the hosting platform.
-/

namespace StaticSite.Archive

/-- A file of a project: its path and its text. -/
structure File where
  path : Text
  content : Text
  deriving DecidableEq, Repr

/-- The name of a project in file names: lower case, with a hyphen for each run of blanks. -/
def slug (name : Text) : Text :=
  (Text.squeeze isBlank (Text.lower name)).map fun c => if c = ' ' then '-' else c

/-- The name of a project's archive. -/
def fileName (name : Text) : Text := slug name ++ ".zip"

/-- The manifest of a project. -/
def manifest (name : Text) : File :=
  { path := "package.json"
    content := Json.pretty "  " 0 (.table [
      ("name", .text (String.ofList (slug name))),
      ("version", .text "1.0.0"),
      ("description", .text (String.ofList (name ++ " - Built with Pagecraft"))),
      ("scripts", .table [
        ("dev", .text "vite"),
        ("build", .text "vite build"),
        ("preview", .text "vite preview"),
        ("serve", .text "python -m http.server 8000")]),
      ("devDependencies", .table [("vite", .text "^5.0.0")])]) }

/-- The readme of a project. -/
def readme (name : Text) : File :=
  let heading : List Text := ["# " ++ name]
  let body : List String := [
    "",
    "Built with Pagecraft, a static site generator for component trees.",
    "",
    "## Getting Started",
    "",
    "### Option 1: Simple HTTP Server",
    "",
    "```bash",
    "# Python 3",
    "python -m http.server 8000",
    "",
    "# Node.js",
    "npx serve",
    "```",
    "",
    "### Option 2: Vite Dev Server",
    "",
    "```bash",
    "npm install",
    "npm run dev",
    "```",
    "",
    "## Deployment",
    "",
    "### Vercel",
    "",
    "```bash",
    "npx vercel",
    "```",
    "",
    "### Netlify",
    "",
    "```bash",
    "npx netlify deploy",
    "```",
    "",
    "### GitHub Pages",
    "",
    "Push to a GitHub repository and enable Pages in settings.",
    "",
    "## License",
    "",
    "MIT"]
  { path := "README.md", content := Text.page (heading ++ body.map String.toList) }

/-- The list of what version control ignores. -/
def ignoreList : File :=
  let entries : List String :=
    ["node_modules", "dist", ".DS_Store", "*.log", ".env", ".vscode", ".idea"]
  { path := ".gitignore", content := Text.unlines (entries.map String.toList) }

/-- The configuration of Vercel. -/
def vercelConfig : File :=
  { path := "vercel.json"
    content := Json.pretty "  " 0 (.table [
      ("version", .int 2),
      ("builds", .list [.table [("src", .text "index.html"), ("use", .text "@vercel/static")]]),
      ("routes", .list [.table [("src", .text "/(.*)"), ("dest", .text "/index.html")]])]) }

/-- The configuration of Netlify. -/
def netlifyConfig : File :=
  let lines : List String := [
    "[build]",
    "  publish = \".\"",
    "",
    "[[redirects]]",
    "  from = \"/*\"",
    "  to = \"/index.html\"",
    "  status = 200"]
  { path := "netlify.toml", content := Text.unlines (lines.map String.toList) }

/-- The configuration of a hosting platform, for those that need one. -/
def platformConfig? : String → Option File
  | "vercel" => some vercelConfig
  | "netlify" => some netlifyConfig
  | _ => none

/-- The files around a site. -/
def projectFiles (name : Text) (platform : Option String) : List File :=
  [manifest name, readme name, ignoreList] ++ (platform.bind platformConfig?).toList

end StaticSite.Archive
