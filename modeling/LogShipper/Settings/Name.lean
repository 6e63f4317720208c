/-!
# The catalogue of settings

Nineteen settings have a name and a preset. Everything that is known about a setting as such is in
this table.
-/

namespace LogShipper

/-- A setting. -/
inductive Setting where
  | logLevel
  | readFromHead
  | ignoreOlder
  | matchContainerName
  | skipContainerNames
  | matchImageName
  | skipImageNames
  | includeLine
  | excludeLines
  | additionalFields
  | setFields
  | logsToken
  | listenerUrl
  | streamType
  | outputId
  | headers
  | joinStart
  | joinContinuations
  | logsPath
deriving DecidableEq, Repr

namespace Setting

/-- The settings in the order of the catalogue. -/
def all : List Setting :=
  [.logLevel, .readFromHead, .ignoreOlder, .matchContainerName, .skipContainerNames,
    .matchImageName, .skipImageNames, .includeLine, .excludeLines, .additionalFields, .setFields,
    .logsToken, .listenerUrl, .streamType, .outputId, .headers, .joinStart,
    .joinContinuations, .logsPath]

/-- The name under which a setting is given. -/
def name : Setting → String
  | .logLevel => "LOG_LEVEL"
  | .readFromHead => "READ_FROM_HEAD"
  | .ignoreOlder => "IGNORE_OLDER"
  | .matchContainerName => "MATCH_CONTAINER_NAME"
  | .skipContainerNames => "SKIP_CONTAINER_NAMES"
  | .matchImageName => "MATCH_IMAGE_NAME"
  | .skipImageNames => "SKIP_IMAGE_NAMES"
  | .includeLine => "INCLUDE_LINE"
  | .excludeLines => "EXCLUDE_LINES"
  | .additionalFields => "ADDITIONAL_FIELDS"
  | .setFields => "SET_FIELDS"
  | .logsToken => "LOGZIO_LOGS_TOKEN"
  | .listenerUrl => "LOGZIO_URL"
  | .streamType => "LOGZIO_TYPE"
  | .outputId => "OUTPUT_ID"
  | .headers => "HEADERS"
  | .joinStart => "MULTILINE_START_STATE_RULE"
  | .joinContinuations => "MULTILINE_CUSTOM_RULES"
  | .logsPath => "LOGS_PATH"

/-- The value of a setting that is not given. -/
def preset : Setting → String
  | .logLevel => "info"
  | .readFromHead => "true"
  | .logsToken => "your_logzio_logs_token"
  | .listenerUrl => "https://listener.logz.io:8071"
  | .streamType => "logzio-docker-logs"
  | .outputId => "output_id"
  | .logsPath => "/var/lib/docker/containers/*/*.log"
  | _ => ""

/-- The setting of that name. Names are spelled exactly. -/
def ofName? (n : String) : Option Setting :=
  all.find? (·.name = n)

theorem mem_all (k : Setting) : k ∈ all := by
  cases k <;> decide

theorem ofName?_name (k : Setting) : ofName? k.name = some k := by
  cases k <;> decide

theorem name_of_ofName? {n : String} {k : Setting} (h : ofName? n = some k) : k.name = n := by
  simpa using List.find?_some h

end Setting

end LogShipper
