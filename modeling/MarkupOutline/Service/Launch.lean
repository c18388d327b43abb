import MarkupOutline.Json
import MarkupOutline.Log.Record
import MarkupOutline.Settings

/-!
# Launching the service

What the service hands to the web server that runs it, and what it records on the way.
-/

namespace MarkupOutline.Service

/-- The application to run, the options of the web server, in the order of their names, and the
log records that pass the threshold. -/
structure Launch where
  application : String
  options : List (String × Json)
  records : List Log.Record

/-- The launch of the service with the given settings. -/
def launch (logLevel : String) (s : Settings.Service) : Launch where
  application := "outline_server.main:app"
  options :=
    [("host", .string s.host), ("log_config", .null), ("port", .integer s.tcpPort),
     ("reload", .bool s.reload)]
  records :=
    Log.above (Log.thresholdFor logLevel false false)
      [⟨.info, "outline_server.__main__", "Starting axaml-outline server",
        [("host", .text s.host), ("port", .number s.tcpPort), ("reload", .flag s.reload)]⟩]

end MarkupOutline.Service
