import Mathlib.Data.List.Forall2
import Lotto.Library.Fields
import Lotto.Base

namespace Lotto.Preload

open Library.FaultRun Library.Fields

abbrev Text := List Char

def maxListStr : Nat := 32 * 1024

def liblottoRuntime : Text :=
  ['l', 'i', 'b', 'l', 'o', 't', 't', 'o', '-', 'r', 'u', 'n', 't', 'i', 'm', 'e', '.', 's', 'o']

def liblottoRuntimeDbg : Text :=
  ['l', 'i', 'b', 'l', 'o', 't', 't', 'o', '-', 'r', 'u', 'n', 't', 'i', 'm', 'e', '-', 'd', 'b', 'g', '.',
    's', 'o']

def lottoRuntime : Text := ['l', 'o', 't', 't', 'o', '-', 'r', 'u', 'n', 't', 'i', 'm', 'e']

/-- `RUNTIME_MODULE_PREFIX`. -/
def runtimeModule : Text := lottoRuntime ++ ['-']

/-- `RUNTIME_DBG_MODULE_PREFIX`. -/
def runtimeDbgModule : Text := lottoRuntime ++ ['-', 'd', 'b', 'g', '-']

/-- The environment variable `LD_PRELOAD` and the string in the static buffer `out_dir`, which is zero
behind it. -/
structure Statics where
  ldPreload : Option Text
  outDir : Text
  deriving DecidableEq, Repr

/-- `strrchr(path, '/')`, as what is before and behind the slash. -/
def strrchr : Text → Option (Text × Text)
  | [] => none
  | c :: path =>
      match strrchr path with
      | some (dir, base) => some (c :: dir, base)
      | none => if c = '/' then some ([], path) else none

def strip (base : Text) : Option Text :=
  if runtimeDbgModule.isPrefixOf base then some (base.drop runtimeDbgModule.length)
  else if runtimeModule.isPrefixOf base then some (base.drop runtimeModule.length)
  else none

/-- `_parse_runtime_plugin_path`: the name if it is one, and `out_dir`. Without a slash the comparison
reads from a null pointer. -/
def parseRuntimePluginPath (outDir path : Text) : Except Fault (Option Text × Text) :=
  match strrchr path with
  | none => .error .preloadNull
  | some (dir, base) => .ok (strip base, dir ++ outDir.drop dir.length)

def modulePath (isDbg : Bool) (dir name : Text) : Text :=
  dir ++ ['/'] ++ lottoRuntime ++ (if isDbg then ['-', 'd', 'b', 'g'] else []) ++ ['-'] ++ name

def appendPath (result path : Text) : Except Fault Text := do
  check (decide (result.length + path.length < maxListStr)) .preloadOutside
  .ok (result ++ path ++ [':'])

/-- A round of the loop of `_ld_preload_fix_dbg`, with `result` and `out_dir`. -/
def fixRound (isDbg : Bool) (path result outDir : Text) : Except Fault (Text × Text) :=
  if path = liblottoRuntime ∧ isDbg = true then do
    let result ← appendPath result liblottoRuntimeDbg
    .ok (result, outDir)
  else if path = liblottoRuntimeDbg ∧ isDbg = false then do
    let result ← appendPath result liblottoRuntime
    .ok (result, outDir)
  else do
    let (found, outDir) ← parseRuntimePluginPath outDir path
    match found with
    | none => .ok (result, outDir)
    | some name => do
        let result ← appendPath result ((modulePath isDbg outDir name).take (maxListStr - 1))
        .ok (result, outDir)

def fixLoop (isDbg : Bool) : List Text → Text → Text → Except Fault (Text × Text)
  | [], result, outDir => .ok (result, outDir)
  | path :: paths, result, outDir =>
      if result.length < maxListStr - 1 then do
        let (result, outDir) ← fixRound isDbg path result outDir
        fixLoop isDbg paths result outDir
      else .ok (result, outDir)

def ldPreloadFixDbg (isDbg : Bool) (s : Statics) : Except Fault Statics :=
  match s.ldPreload with
  | none => .ok s
  | some [] => .ok s
  | some (c :: ldPreload) => do
      check (decide ((c :: ldPreload).length < maxListStr)) .preloadOutside
      let (result, outDir) ← fixLoop isDbg (tokens ':' (c :: ldPreload)) [] s.outDir
      check (decide (0 < result.length)) .preloadOutside
      .ok { ldPreload := some result.dropLast, outDir }

section Meaning

def entries (ldPreload : Option Text) : List Text := tokens ':' (ldPreload.getD [])

def plugin (isDbg : Bool) (name : Text) : Text :=
  (if isDbg then runtimeDbgModule else runtimeModule) ++ name

def variantName (isDbg : Bool) (base : Text) : Text :=
  if base = liblottoRuntime ∨ base = liblottoRuntimeDbg then
    if isDbg then liblottoRuntimeDbg else liblottoRuntime
  else
    match strip base with
    | some name => plugin isDbg name
    | none => base

def variant (isDbg : Bool) (path : Text) : Text :=
  match strrchr path with
  | none => variantName isDbg path
  | some (dir, base) => dir ++ '/' :: variantName isDbg base

/-- The runtime entries are replaced in their places, and a second time changes nothing. -/
def Switches (isDbg : Bool) (s : Statics) : Prop :=
  ∃ s', ldPreloadFixDbg isDbg s = .ok s' ∧
    entries s'.ldPreload = (entries s.ldPreload).map (variant isDbg) ∧
      ∃ s'', ldPreloadFixDbg isDbg s' = .ok s'' ∧ s''.ldPreload = s'.ldPreload

/-- A plugin in a directory of some length, whose name does not look like another variant once it is
released. -/
def PluginIn (isDbg : Bool) (k : Nat) (path : Text) : Prop :=
  ∃ dir base name, strrchr path = some (dir, base) ∧ strip base = some name ∧ dir.length = k ∧
    (isDbg = false → ¬['d', 'b', 'g', '-'] <+: name)

/-- Nothing is set, or all entries are plugins in directories of one length, and the result fits. -/
def Uniform (isDbg : Bool) (ldPreload : Option Text) : Prop :=
  ldPreload.getD [] = [] ∨
    entries ldPreload ≠ [] ∧ (∃ k, ∀ path ∈ entries ldPreload, PluginIn isDbg k path) ∧
      ([':'].intercalate ((entries ldPreload).map (variant isDbg))).length < maxListStr

end Meaning

end Lotto.Preload
