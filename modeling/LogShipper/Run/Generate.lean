import LogShipper.Run.Fault
import LogShipper.Run.Host
import LogShipper.Run.Report
import LogShipper.Settings.File

/-!
# Runs

A run checks that the plugin is there, compiles the snapshot, which validates it first, and writes
the documents one after the other. The first fault ends it: nothing is written before the documents
exist, and no document is written behind one that could not be.
-/

namespace LogShipper

/-- Where documents go, and which plugin has to be there first. -/
structure Targets where
  main : String
  joining : String
  plugin? : Option String
deriving DecidableEq, Repr

namespace Targets

/-- The plugin's usual place. -/
def usualPlugin : String := "/fluent-bit/plugins/out_logzio.so"

/-- The main document's usual place. -/
def usualMain : String := "/fluent-bit/etc/fluent-bit.conf"

/-- The usual place of the document that says how lines are joined. -/
def usualJoining : String := "/fluent-bit/etc/parsers_multiline.conf"

/-- The usual places. -/
def usual : Targets :=
  { main := usualMain, joining := usualJoining, plugin? := some usualPlugin }

end Targets

/-- The documents to write, with their places, in order. -/
def Compiled.placed (c : Compiled) (targets : Targets) : List (String × String) :=
  (targets.main, c.main) :: (c.joining?.map fun text => (targets.joining, text)).toList

namespace Host

variable {m : Type → Type} [Monad m] (host : Host m)

/-- The plugin can be opened. -/
def requirePlugin (path : String) : ExceptT PluginFault m Unit := do
  match ← host.probe path with
  | .ok () => host.note (.pluginFound path)
  | .error cause => throw { path, cause }

/-- Refuse a snapshot that breaks a rule. This is the only gate to documents. -/
def validate (s : Settings) : ExceptT Conflict m Unit := do
  host.countValidation
  match s.validate with
  | .ok () => return
  | .error c => throw c

/-- The documents of a snapshot, if it is valid. -/
def compile (s : Settings) : ExceptT Conflict m Compiled := do
  host.validate s
  s.compileEvents.forM fun e => host.note e
  return s.documents

/-- Write a text to a path. -/
def writeDocument (path text : String) : ExceptT WriteFault m WrittenDocument := do
  match ← host.write path text with
  | .ok () =>
    host.note (.fileCreated path text.utf8ByteSize)
    return .ofText path text
  | .error cause => throw { path, cause }

/-- Look for the plugin, if there is one to look for. -/
def lookForPlugin (targets : Targets) : ExceptT PluginFault m Unit :=
  match targets.plugin? with
  | some path => host.requirePlugin path
  | none => pure ()

/-- Write documents to their places, one after the other. -/
def writeAll (docs : List (String × String)) : ExceptT WriteFault m (List WrittenDocument) :=
  docs.mapM fun (path, text) => host.writeDocument path text

/-- What a run does once the plugin is there. -/
def produce (s : Settings) (targets : Targets) : ExceptT RunFault m Report := do
  let compiled ← (host.compile s).adapt .conflict
  let written ← (host.writeAll (compiled.placed targets)).adapt .notWritten
  host.note (.generated written.length)
  return { programVersion, generatedAt := ← host.now, settingsHash := s.fingerprint
           written, skipped := compiled.skipped }

/-- A run. -/
def generate (s : Settings) (targets : Targets) : ExceptT RunFault m Report := do
  (host.lookForPlugin targets).adapt .pluginMissing
  host.produce s targets

end Host

end LogShipper
