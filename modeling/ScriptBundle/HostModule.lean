/-! # Host modules

The modules a host supplies itself. They are never looked for in the file tree and never packed;
the artifact carries the same table, so that packing and running agree on it.

* **`HostModule.names`** — the table, sub-paths included;
* **`isHostModule`** — whether a specifier names a host module: by the table, or by the scheme
  `node:` in front of any name. -/

namespace ScriptBundle

/-- The scheme that marks a host module. -/
def HostModule.scheme : String := "node:"

/-- **The host modules**, in the order the artifact lists them. -/
def HostModule.names : List String :=
  ["assert", "assert/strict", "async_hooks", "buffer", "child_process", "cluster", "console",
    "constants", "crypto", "dgram", "diagnostics_channel", "dns", "dns/promises", "domain",
    "events", "fs", "fs/promises", "http", "http2", "https", "inspector", "inspector/promises",
    "module", "net", "os", "path", "path/posix", "path/win32", "perf_hooks", "process",
    "punycode", "querystring", "readline", "readline/promises", "repl", "stream",
    "stream/consumers", "stream/promises", "stream/web", "string_decoder", "sys", "timers",
    "timers/promises", "tls", "trace_events", "tty", "url", "util", "util/types", "v8", "vm",
    "wasi", "worker_threads", "zlib"]

/-- **Whether a `specifier` names a host module.** -/
def isHostModule (specifier : String) : Bool :=
  match HostModule.scheme.toList.isPrefixOf? specifier.toList with
  | some name => !name.isEmpty
  | none => HostModule.names.contains specifier

end ScriptBundle
