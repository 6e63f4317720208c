import LogShipper.Document.Joining
import LogShipper.Section.Basic
import LogShipper.Settings.Basic

/-!
# Sections of the main document

The sections that are always there, each from the settings it shows, and the one that makes nested
names visible to filters.
-/

namespace LogShipper

namespace Blocks

/-- The tag of the records that are read. -/
def recordTag : String := "docker.*"

/-- The parser of single lines. -/
def lineParser : String := "docker"

/-- The script that adds what is known about a container. -/
def metadataScript : String := "/fluent-bit/etc/docker-metadata.lua"

/-- The function of the script that is called for each record. -/
def metadataFunction : String := "enrich_with_docker_metadata"

/-- The field under which the script puts what it adds. -/
def metadataField : String := "_source"

/-- The name of the output plugin. -/
def outputName : String := "logzio"

/-- The header by which the sender is known. -/
def senderHeader : String := "user-agent:logzio-docker-collector-logs"

/-- The column of most entries. -/
def wide : Nat := 12

/-- General matters of the engine. -/
def service (s : Settings) : Section :=
  (Section.new .service).aligned wide
    |>.entry "Parsers_File" "parsers.conf"
    |>.entry "Parsers_File" "parsers_multiline.conf"
    |>.entry "Flush" "1"
    |>.entry "Daemon" "Off"
    |>.entry "Log_Level" (s.value .logLevel)

/-- The files that are read, and how. -/
def input (s : Settings) : Section :=
  let files := (Section.new .input).aligned wide
    |>.entry "Name" "tail"
    |>.entry "Path" (s.value .logsPath)
    |>.entry "Parser" lineParser
    |>.entry "Tag" recordTag
  let joined :=
    if s.joinsLines then
      files.entry "read_from_head" (s.value .readFromHead)
        |>.entry "multiline.parser" JoiningRule.parserName
    else files
  if s.value .ignoreOlder = "" then joined
  else joined.entry "ignore_older" (s.value .ignoreOlder)

/-- The script that is run on each record. -/
def metadata : Section :=
  (Section.new .filter).aligned wide
    |>.entry "Name" "lua"
    |>.entry "Match" recordTag
    |>.entry "script" metadataScript
    |>.entry "call" metadataFunction

/-- What the script adds is lifted, so that filters can see it. -/
def lifting : Section :=
  (Section.new .filter).aligned wide
    |>.entry "Name" "nest"
    |>.entry "Match" "*"
    |>.entry "Operation" "lift"
    |>.entry "Nested_under" metadataField

/-- Where records are sent. -/
def output (s : Settings) : Section :=
  let head := (Section.new .output).aligned 5
    |>.entry "Name" outputName
    |>.entry "Match" "*"
  let destination := head.aligned wide
    |>.entry "logzio_token" (s.value .logsToken)
    |>.entry "logzio_url" (s.value .listenerUrl)
    |>.entry "logzio_type" (s.value .streamType)
  let named := destination.aligned 0
    |>.entry "id" (s.value .outputId)
    |>.entry "headers" senderHeader
  if s.value .headers = "" then named else named.entryAt wide "headers" (s.value .headers)

end Blocks

end LogShipper
