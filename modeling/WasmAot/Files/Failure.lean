/-
# Failures

When a file cannot be compiled the reason is told along with what was being done, outermost first.
-/
import WasmAot.Error
import WasmAot.Files.Disk

namespace WasmAot.Files

/-- What was being done. -/
inductive Activity where
  | compilation
  | reading (path : String)
  | compiling (path : String)
  | writing (path : String)
  | caching (key : String)
  | creatingCache (directory : String)
  | openingCache (directory : String)
  | writingCache (path : String)
  | moving (error : DiskError)
  deriving DecidableEq

/-- The failed activity in words. -/
def Activity.message : Activity → String
  | compilation => "compilation failed"
  | reading path => "failed to read " ++ path
  | compiling path => "failed to compile " ++ path
  | writing path => "failed to write " ++ path
  | caching key => s!"failed to cache module `{key}`"
  | creatingCache directory => "unable to create the cache directory " ++ directory
  | openingCache directory => "unable to write in the cache directory " ++ directory
  | writingCache path => "failed to write cache file " ++ path
  | moving error => "failed to persist temporary file: " ++ error.message

/-- Why it failed. -/
inductive Cause where
  | disk (error : DiskError)
  | source (error : Error)
  deriving DecidableEq

/-- The cause in words. -/
def Cause.message : Cause → String
  | disk error => error.message
  | source error => error.message

/-- A failure: what was being done, outermost first, and the cause. -/
structure Failure where
  during : List Activity
  cause : Cause
  deriving DecidableEq

namespace Failure

/-- The failure as part of another activity. -/
def within (a : Activity) (f : Failure) : Failure :=
  { f with during := a :: f.during }

/-- All messages, outermost first. -/
def messages (f : Failure) : List String :=
  f.during.map Activity.message ++ [f.cause.message]

/-- The outermost message. -/
def headline (f : Failure) : String :=
  f.messages.headD ""

/-- A message behind a mark, all lines of it at the same column. -/
def indented (mark text : String) : String :=
  let margin := "\n" ++ String.ofList (List.replicate mark.length ' ')
  mark ++ margin.intercalate (text.splitOn "\n")

/-- The causes as they are listed: numbered if there are several. -/
def causeList : List String → List String
  | [] => []
  | [only] => ["", "Caused by:", indented "    " only]
  | causes =>
    ["", "Caused by:"] ++ causes.zipIdx.map fun c => indented s!"    {c.2}: " c.1

/-- The whole failure: the outermost message, then the causes. -/
def report (f : Failure) : String :=
  "\n".intercalate (f.headline :: causeList f.messages.tail)

end Failure

end WasmAot.Files
