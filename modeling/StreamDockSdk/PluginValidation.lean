import Mathlib.Data.List.Lex
import Mathlib.Order.Fin.Basic
import Mathlib.Data.List.Sort
import StreamDockSdk.Filesystem.RealPath
import StreamDockSdk.Registration

namespace StreamDockSdk.PluginValidation

open Filesystem

/-- The text of a path or the name of an entry. -/
abbrev PathText := List CodePoint

abbrev Place := List PathText

def slash : CodePoint := 47

def backslash : CodePoint := 92

def colon : CodePoint := 58

/-- `value.replace("\\", "/")` -/
def normalize (value : PathText) : PathText :=
  value.map fun point => if point = backslash then slash else point

/-- `Path(text).is_absolute()` -/
def isAbsolute (text : PathText) : Bool :=
  text.head? = some slash

def isLetter (point : CodePoint) : Bool :=
  (65 ≤ point.val && point.val ≤ 90) || (97 ≤ point.val && point.val ≤ 122)

/-- Whether a host and a share follow two slashes. -/
def hasShare (text : PathText) : Bool :=
  match text.dropWhile (· != slash) with
  | [] => false
  | _ :: share => text.head? ≠ some slash && share.head? ≠ some slash

/-- Whether `PureWindowsPath(text).drive` is not empty. -/
def hasDrive (text : PathText) : Bool :=
  match normalize text with
  | first :: second :: rest =>
      if first = slash ∧ second = slash then
        [63, slash].isPrefixOf rest || hasShare rest
      else isLetter first && second = colon
  | _ => false

/-- What lies between two slashes: nothing and `.` are no part of a path. -/
def partOf (piece : PathText) : Option (Filesystem.Part PathText) :=
  if piece = [] ∨ piece = Str.ofString "." then none
  else if piece = Str.ofString ".." then some .parent
  else some (.name piece)

/-- `Path(text).parts`, of a relative path. -/
def partsOf (text : PathText) : List (Filesystem.Part PathText) :=
  (text.splitOn slash).filterMap partOf

/-- `str(path)`, of a relative path of names. -/
def textOf : List PathText → PathText
  | [] => Str.ofString "."
  | names => [slash].intercalate names

def partText : Filesystem.Part PathText → PathText
  | .empty => []
  | .current => Str.ofString "."
  | .parent => Str.ofString ".."
  | .name name => name

/-- `path.name` -/
def nameOf (directory : Place) (parts : List (Filesystem.Part PathText)) : PathText :=
  match parts.getLast? with
  | some part => partText part
  | none => directory.getLastD []

/-- `path.suffix.lower() in {".html", ".htm"}`, of a path with the name. -/
def isHtml (name : PathText) : Bool :=
  let lower (point : CodePoint) : CodePoint :=
    if 65 ≤ point.val ∧ point.val ≤ 90 then point + 32 else point
  let suffix := (name.reverse.takeWhile (· != 46)).reverse.map lower
  let stem := (name.reverse.dropWhile (· != 46)).drop 1
  stem ≠ [] && (suffix = Str.ofString "html" || suffix = Str.ofString "htm")

/-- `PROPERTY_INSPECTOR_CLIENT_FILENAME` -/
def clientFilename : PathText :=
  Str.ofString "mirabox-sdk.js"

/-- Where `urlsplit` and `unquote` see a reference lead. -/
inductive Located where
  /-- `urlsplit` raises `ValueError`. -/
  | raises
  /-- A scheme, a host or no path. -/
  | elsewhere
  | path (text : PathText)
deriving DecidableEq, Repr

/-- What becomes of the contents of an HTML file. -/
inductive Parsing where
  /-- `read_text` raises the `ValueError` of a text that is not UTF-8. -/
  | undecodable
  /-- `HTMLParser.feed` raises `AssertionError`. -/
  | asserts
  | references (references : List PathText)
deriving DecidableEq, Repr

/-- What a directory may call its entries. -/
structure IsName (name : PathText) : Prop where
  slashless : slash ∉ name
  part : partOf name = some (.name name)

instance (name : PathText) : Decidable (IsName name) :=
  decidable_of_iff (slash ∉ name ∧ partOf name = some (.name name))
    ⟨fun named => ⟨named.1, named.2⟩, fun named => ⟨named.slashless, named.part⟩⟩

/-- A bundle, and what is asked about its files. -/
structure Bundle (Content : Type) where
  files : Tree PathText Content
  root : Place
  resolved : files.resolve true (root.map .name) = .ok { doubled := false, names := root }
  isDirectory : files.isDirectory root = .ok true
  named : ∀ entry ∈ files.nodes, ∀ name ∈ entry.1, IsName name
  /-- `property_inspector_client_bytes()` -/
  sdkClient : Content
  parse : Content → Parsing
  locate : PathText → Located

inductive Raised where
  | osError
  | valueError
  | runtimeError
  /-- No handler of the checks is for it. -/
  | assertionError
deriving DecidableEq, Repr

namespace Raised

/-- What a call of the system raises. -/
def ofFailure (failure : Failure) : Raised :=
  if failure = .unencodable then .valueError else .osError

/-- What `Path.resolve` raises. -/
def ofResolve (failure : Failure) : Raised :=
  if failure = .loop then .runtimeError else ofFailure failure

end Raised

inductive Complaint where
  /-- `expected a non-empty relative file path` -/
  | expectedPath
  /-- `expected a relative file path inside the bundle` -/
  | notRelative
  /-- `file resolves outside the bundle` -/
  | outside
  /-- `file not found: {value}` -/
  | notFound (value : PathText)
  /-- `cannot inspect file {value}: {exc}` -/
  | cannotInspect (value : PathText) (caught : Raised)
  /-- `client differs from the installed SDK; refresh with ...` -/
  | clientDiffers (parent : Place)
  /-- `path resolves outside the bundle` -/
  | pathOutside
  /-- `cannot inspect Property Inspector clients: {exc}` -/
  | cannotInspectClients (caught : Raised)
deriving DecidableEq, Repr

structure Issue where
  path : PathText
  complaint : Complaint
  /-- The file that was inspected, where one was found. -/
  about : Option Place
deriving DecidableEq, Repr

structure PluginValidator where
  issues : List Issue
  checkedHtml : List Place
  checkedClients : List Place
  /-- The paths under which files were found. -/
  inspected : List (List (Filesystem.Part PathText))
  /-- The files whose contents were asked for. -/
  reads : List Place
  /-- The files that were compared with the client of the SDK. -/
  compared : List Place
  /-- The files that were parsed as HTML. -/
  parsed : List Place
deriving DecidableEq, Repr

def PluginValidator.fresh : PluginValidator where
  issues := []
  checkedHtml := []
  checkedClients := []
  inspected := []
  reads := []
  compared := []
  parsed := []

namespace PluginValidator

variable (validator : PluginValidator)

def error (path : PathText) (complaint : Complaint) (about : Option Place) : PluginValidator :=
  { validator with issues := validator.issues ++ [{ path, complaint, about }] }

def read (target : Place) : PluginValidator :=
  { validator with reads := validator.reads ++ [target] }

end PluginValidator

/-- What a check leaves behind, and the exception it raises. -/
abbrev Checked := PluginValidator × Option Raised

variable {Content : Type} [DecidableEq Content]

namespace Bundle

variable (bundle : Bundle Content)

/-- `path.is_relative_to(self.root)` -/
def inside (path : ResolvedPath PathText) : Bool :=
  !path.doubled && bundle.root.isPrefixOf path.names

/-- `str(path.relative_to(self.root))`, of a path below the root. -/
def relativeText (directory : Place) (parts : List (Filesystem.Part PathText)) : PathText :=
  textOf (directory.drop bundle.root.length ++ parts.map partText)

/-- The path of a value in a directory. -/
def sourceOf (directory : Place) (value : PathText) : List (Filesystem.Part PathText) :=
  directory.map .name ++ partsOf (normalize value)

/-- The file that `file` finds under a value, or what it complains of. -/
def find (directory : Place) : Option PathText → Except Complaint Place
  | none => .error .expectedPath
  | some value =>
      if value.all isSpace then .error .expectedPath
      else if isAbsolute (normalize value) || hasDrive value then .error .notRelative
      else
        match bundle.files.resolve false (sourceOf directory value) with
        | .error failure => .error (.cannotInspect value (.ofResolve failure))
        | .ok target =>
            if !bundle.inside target then .error .outside
            else
              match bundle.files.isFile target.names with
              | .error failure => .error (.cannotInspect value (.ofFailure failure))
              | .ok false => .error (.notFound value)
              | .ok true => .ok target.names

def client (target : Place) (path : PathText) (validator : PluginValidator) : Checked :=
  if target ∈ validator.checkedClients then (validator, none)
  else
    let marked :=
      { validator.read target with checkedClients := target :: validator.checkedClients }
    match bundle.files.read target with
    | none => (marked, some .osError)
    | some content =>
        let compared := { marked with compared := target :: validator.compared }
        if content ≠ bundle.sdkClient then
          (compared.error path (.clientDiffers target.dropLast) (some target), none)
        else (compared, none)

def inspectHtml (html : Place → PluginValidator → Option Checked) (target : Place)
    (validator : PluginValidator) : Option Checked :=
  if isHtml (target.getLastD []) then html target validator else some (validator, none)

/-- What `file` does with the file that it found. -/
def inspect (html : Place → PluginValidator → Option Checked) (target directory : Place)
    (parts : List (Filesystem.Part PathText)) (validator : PluginValidator) : Option Checked :=
  if nameOf directory parts = clientFilename ∨ target.getLastD [] = clientFilename then
    match bundle.client target (bundle.relativeText directory parts) validator with
    | (after, some raised) => some (after, some raised)
    | (after, none) => inspectHtml html target after
  else inspectHtml html target validator

def file (html : Place → PluginValidator → Option Checked) (value : Option PathText)
    (path : PathText) (directory : Place) (validator : PluginValidator) : Option Checked :=
  match bundle.find directory value with
  | .error complaint => some (validator.error path complaint none, none)
  | .ok target =>
      let text := value.getD []
      let inspecting :=
        { validator with inspected := sourceOf directory text :: validator.inspected }
      match bundle.inspect html target directory (partsOf (normalize text)) inspecting with
      | none => none
      | some (after, none) => some (after, none)
      | some (after, some .assertionError) => some (after, some .assertionError)
      | some (after, some raised) =>
          some (after.error path (.cannotInspect text raised) (some target), none)

/-- The file that an HTML text refers to. -/
def referred (reference : PathText) : Located :=
  if hasDrive reference && !(Str.ofString "//").isPrefixOf reference then .path reference
  else bundle.locate reference

def checkReferences (file : PathText → PluginValidator → Option Checked) :
    List PathText → PluginValidator → Option Checked
  | [], validator => some (validator, none)
  | reference :: rest, validator =>
      match bundle.referred reference with
      | .raises => some (validator, some .valueError)
      | .elsewhere => checkReferences file rest validator
      | .path text =>
          match file text validator with
          | none => none
          | some (after, some raised) => some (after, some raised)
          | some (after, none) => checkReferences file rest after

/-- `html` and the `file` it calls, which is cut off at a depth. -/
def html : Nat → Place → PluginValidator → Option Checked
  | 0, _, _ => none
  | depth + 1, target, validator =>
      if target ∈ validator.checkedHtml then some (validator, none)
      else
        let marked := { validator.read target with checkedHtml := target :: validator.checkedHtml }
        match bundle.files.read target with
        | none => some (marked, some .osError)
        | some content =>
            let parsed := { marked with parsed := target :: marked.parsed }
            match bundle.parse content with
            | .undecodable => some (marked, some .valueError)
            | .asserts => some (parsed, some .assertionError)
            | .references references =>
                bundle.checkReferences
                  (fun text => bundle.file (html depth) (some text)
                    (bundle.relativeText target []) target.dropLast)
                  references parsed

end Bundle

structure BundleTraversal where
  /-- The paths to visit, the next one first. -/
  pending : List (List PathText)
  checkedDirectories : List Place
  /-- The paths whose entries were asked for. -/
  entered : List (List PathText)
  validator : PluginValidator
deriving DecidableEq, Repr

namespace Bundle

variable (bundle : Bundle Content)

/-- `path.resolve(strict=True)`, of a path below the root. -/
def resolve (source : List PathText) : Except Failure (ResolvedPath PathText) :=
  bundle.files.resolve true ((bundle.root ++ source).map .name)

/-- The check of an entry with the name of the client. -/
def checkEntry (html : Place → PluginValidator → Option Checked) (source : List PathText)
    (validator : PluginValidator) : Option Checked :=
  if source.getLast? = some clientFilename then
    bundle.file html (some (textOf source)) (textOf source) bundle.root validator
  else some (validator, none)

/-- `pending.extend(sorted(source.iterdir(), reverse=True))` and what it raises. -/
def extend (source : List PathText) (traversal : BundleTraversal) : BundleTraversal :=
  let entered := source :: traversal.entered
  match bundle.files.list (bundle.root ++ source) with
  | .error failure =>
      { traversal with
        entered
        validator := traversal.validator.error (textOf source)
          (.cannotInspectClients (.ofFailure failure)) none }
  | .ok names =>
      { traversal with
        entered
        pending := (names.insertionSort (· ≤ ·)).map (source ++ [·]) ++ traversal.pending }

/-- A turn of the loop of `bundled_clients`. -/
def visit (html : Place → PluginValidator → Option Checked) (source : List PathText)
    (traversal : BundleTraversal) : Option (BundleTraversal × Option Raised) :=
  let path := textOf source
  match bundle.resolve source with
  | .error failure =>
      some ({ traversal with
        validator := traversal.validator.error path
          (.cannotInspectClients (.ofResolve failure)) none }, none)
  | .ok target =>
      if !bundle.inside target then
        some ({ traversal with validator := traversal.validator.error path .pathOutside none }, none)
      else
        match bundle.checkEntry html source traversal.validator with
        | none => none
        | some (validator, some raised) => some ({ traversal with validator }, some raised)
        | some (validator, none) =>
            match bundle.files.isDirectory target.names with
            | .error failure =>
                some ({ traversal with
                  validator := validator.error path
                    (.cannotInspectClients (.ofFailure failure)) none }, none)
            | .ok isDirectory =>
                if isDirectory ∧ target.names ∉ traversal.checkedDirectories then
                  some (bundle.extend source { traversal with
                    checkedDirectories := target.names :: traversal.checkedDirectories
                    validator }, none)
                else some ({ traversal with validator }, none)

/-- The loop of `bundled_clients`, which is cut off after some turns. -/
def traverse (html : Place → PluginValidator → Option Checked) :
    Nat → BundleTraversal → Option (BundleTraversal × Option Raised)
  | 0, _ => none
  | turns + 1, traversal =>
      match traversal.pending with
      | [] => some (traversal, none)
      | source :: rest =>
          match bundle.visit html source { traversal with pending := rest } with
          | none => none
          | some (after, some raised) => some (after, some raised)
          | some (after, none) => traverse html turns after

/-- The traversal that begins at the root. -/
def begin (validator : PluginValidator) : BundleTraversal where
  pending := [[]]
  checkedDirectories := []
  entered := []
  validator

def bundledClients (fuel : Nat) (validator : PluginValidator) :
    Option (BundleTraversal × Option Raised) :=
  bundle.traverse (bundle.html fuel) fuel (begin validator)

/-- The checks of the files that a manifest names, with the paths of its fields. -/
def manifestFiles (fuel : Nat) : List (PathText × Option PathText) → PluginValidator →
    Option Checked
  | [], validator => some (validator, none)
  | (path, value) :: rest, validator =>
      match bundle.file (bundle.html fuel) value path bundle.root validator with
      | none => none
      | some (after, some raised) => some (after, some raised)
      | some (after, none) => manifestFiles fuel rest after

/-- The checks of the files of a plugin, as `validate_plugin` makes them. -/
def validateFiles (fuel : Nat) (fields : List (PathText × Option PathText)) :
    Option (BundleTraversal × Option Raised) :=
  match bundle.manifestFiles fuel fields .fresh with
  | none => none
  | some (validator, some raised) => some (begin validator, some raised)
  | some (validator, none) => bundle.bundledClients fuel validator

end Bundle

end StreamDockSdk.PluginValidation
