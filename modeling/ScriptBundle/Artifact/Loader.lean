/-! # The loader

The script at the top of every artifact. It keeps a table of modules by identity, finds the module a
request means, and runs each module once. Three placeholders in it stand for the identity of the
entry script, the host modules, and the extensions a request is tried with.

* **`Loader.entryMark`, `Loader.hostModulesMark`, `Loader.extensionsMark`** — the placeholders;
* **`Loader.text`** — the script with its placeholders in it. -/

namespace ScriptBundle.Loader

/-- What stands for the identity of the entry script. -/
def entryMark : String := "__ENPAKI_ENTRY__"

/-- What stands for the host modules. -/
def hostModulesMark : String := "__ENPAKI_BUILTINS__"

/-- What stands for the extensions. -/
def extensionsMark : String := "__ENPAKI_EXTENSIONS__"

/-- **The lines of the loader.** -/
def lines : List String :=
  ["/** start of bundle */",
    ";(function () \x7b",
    "var __enpaki_entry = __ENPAKI_ENTRY__;",
    "var __enpaki_builtins = __ENPAKI_BUILTINS__;",
    "var __enpaki_extensions = __ENPAKI_EXTENSIONS__;",
    "",
    "var __enpaki_modules = \x7b\x7d;",
    "var __enpaki_cache = \x7b\x7d;",
    "var __enpaki_max_depth = null;",
    "",
    "var __enpaki_host_require = typeof require === 'function' ? require : null;",
    "var __enpaki_host_dirname = typeof __dirname === 'string' ? __dirname : null;",
    "var __enpaki_host_base = __enpaki_host_dirname === null ? null : __enpaki_host_dirname.replace(/\\\\/g, '/');",
    "",
    "function __enpaki_has(identity) \x7b",
    "  return Object.prototype.hasOwnProperty.call(__enpaki_modules, identity);",
    "\x7d",
    "",
    "function __enpaki_is_builtin(request) \x7b",
    "  if (request.indexOf('node:') === 0) \x7b",
    "    return request.length > 5;",
    "  \x7d",
    "  return __enpaki_builtins.indexOf(request) !== -1;",
    "\x7d",
    "",
    "function __enpaki_is_relative(request) \x7b",
    "  return request === '.' || request === '..' ||",
    "    request.indexOf('./') === 0 || request.indexOf('../') === 0;",
    "\x7d",
    "",
    "function __enpaki_is_absolute(request) \x7b",
    "  return request.charAt(0) === '/' || /^[A-Za-z]:[\\\\\\/]/.test(request);",
    "\x7d",
    "",
    "function __enpaki_normalize(path) \x7b",
    "  var parts = [];",
    "  var segments = path.split('/');",
    "  for (var i = 0; i < segments.length; i++) \x7b",
    "    var segment = segments[i];",
    "    if (segment === '' || segment === '.') \x7b",
    "      continue;",
    "    \x7d",
    "    if (segment === '..' && parts.length && parts[parts.length - 1] !== '..') \x7b",
    "      parts.pop();",
    "    \x7d else \x7b",
    "      parts.push(segment);",
    "    \x7d",
    "  \x7d",
    "  return parts.join('/');",
    "\x7d",
    "",
    "function __enpaki_join(dir, request) \x7b",
    "  return '/' + __enpaki_normalize(dir.slice(1) + '/' + request);",
    "\x7d",
    "",
    "function __enpaki_dirname(identity) \x7b",
    "  var index = identity.lastIndexOf('/');",
    "  return index > 0 ? identity.slice(0, index) : '/';",
    "\x7d",
    "",
    "function __enpaki_depth(dir) \x7b",
    "  var parts = dir.slice(1).split('/');",
    "  var depth = 0;",
    "  while (depth < parts.length && parts[depth] === '..') \x7b",
    "    depth++;",
    "  \x7d",
    "  return depth;",
    "\x7d",
    "",
    "function __enpaki_deepest() \x7b",
    "  if (__enpaki_max_depth === null) \x7b",
    "    __enpaki_max_depth = 0;",
    "    for (var identity in __enpaki_modules) \x7b",
    "      if (__enpaki_has(identity)) \x7b",
    "        __enpaki_max_depth = Math.max(__enpaki_max_depth, __enpaki_depth(identity));",
    "      \x7d",
    "    \x7d",
    "  \x7d",
    "  return __enpaki_max_depth;",
    "\x7d",
    "",
    "function __enpaki_up(dir) \x7b",
    "  if (dir === '/') \x7b",
    "    return '/..';",
    "  \x7d",
    "  var parts = dir.slice(1).split('/');",
    "  if (parts[parts.length - 1] === '..') \x7b",
    "    return dir + '/..';",
    "  \x7d",
    "  parts.pop();",
    "  return '/' + parts.join('/');",
    "\x7d",
    "",
    "function __enpaki_load_as_file(identity) \x7b",
    "  if (__enpaki_has(identity)) \x7b",
    "    return identity;",
    "  \x7d",
    "  for (var i = 0; i < __enpaki_extensions.length; i++) \x7b",
    "    if (__enpaki_has(identity + __enpaki_extensions[i])) \x7b",
    "      return identity + __enpaki_extensions[i];",
    "    \x7d",
    "  \x7d",
    "  return null;",
    "\x7d",
    "",
    "function __enpaki_load_index(identity) \x7b",
    "  for (var i = 0; i < __enpaki_extensions.length; i++) \x7b",
    "    var candidate = __enpaki_join(identity, 'index' + __enpaki_extensions[i]);",
    "    if (__enpaki_has(candidate)) \x7b",
    "      return candidate;",
    "    \x7d",
    "  \x7d",
    "  return null;",
    "\x7d",
    "",
    "function __enpaki_load_as_directory(identity) \x7b",
    "  var manifest = __enpaki_join(identity, 'package.json');",
    "  if (__enpaki_has(manifest)) \x7b",
    "    var pkg = __enpaki_load(manifest, null);",
    "    if (pkg && typeof pkg.main === 'string' && pkg.main) \x7b",
    "      var main = __enpaki_join(identity, pkg.main);",
    "      var found = __enpaki_load_as_file(main) || __enpaki_load_index(main);",
    "      if (found) \x7b",
    "        return found;",
    "      \x7d",
    "    \x7d",
    "  \x7d",
    "  return __enpaki_load_index(identity);",
    "\x7d",
    "",
    "function __enpaki_load_as_path(identity, request) \x7b",
    "  if (request.charAt(request.length - 1) === '/') \x7b",
    "    return __enpaki_load_as_directory(identity);",
    "  \x7d",
    "  return __enpaki_load_as_file(identity) || __enpaki_load_as_directory(identity);",
    "\x7d",
    "",
    "function __enpaki_locate(request, parent) \x7b",
    "  if (__enpaki_has(request)) \x7b",
    "    return request;",
    "  \x7d",
    "  var dir = __enpaki_dirname(parent === null ? __enpaki_entry : parent);",
    "  if (__enpaki_is_relative(request)) \x7b",
    "    return __enpaki_load_as_path(__enpaki_join(dir, request), request);",
    "  \x7d",
    "  if (__enpaki_is_absolute(request)) \x7b",
    "    var mirrored = __enpaki_from_host_path(request);",
    "    return mirrored === null ? null : __enpaki_load_as_path(mirrored, request);",
    "  \x7d",
    "  for (var current = dir; __enpaki_depth(current) <= __enpaki_deepest(); current = __enpaki_up(current)) \x7b",
    "    var found = __enpaki_load_as_path(__enpaki_join(current, 'node_modules/' + request), request);",
    "    if (found) \x7b",
    "      return found;",
    "    \x7d",
    "  \x7d",
    "  return null;",
    "\x7d",
    "",
    "function __enpaki_host_path(identity) \x7b",
    "  if (__enpaki_host_dirname === null) \x7b",
    "    return identity;",
    "  \x7d",
    "  if (identity === '/') \x7b",
    "    return __enpaki_host_dirname;",
    "  \x7d",
    "  var joined = __enpaki_normalize(__enpaki_host_base + identity);",
    "  return __enpaki_host_base.charAt(0) === '/' ? '/' + joined : joined;",
    "\x7d",
    "",
    "function __enpaki_segments(path) \x7b",
    "  var normalized = __enpaki_normalize(path.replace(/\\\\/g, '/'));",
    "  return normalized === '' ? [] : normalized.split('/');",
    "\x7d",
    "",
    "// Inverse of __enpaki_host_path: the identity an absolute host path stands for",
    "function __enpaki_from_host_path(request) \x7b",
    "  if (__enpaki_host_base === null) \x7b",
    "    return null;",
    "  \x7d",
    "  var base = __enpaki_segments(__enpaki_host_base);",
    "  var target = __enpaki_segments(request);",
    "  var common = 0;",
    "  while (common < base.length && common < target.length && base[common] === target[common]) \x7b",
    "    common++;",
    "  \x7d",
    "  if (common === 0 && base.length && /:$/.test(base[0])) \x7b",
    "    return null;",
    "  \x7d",
    "  var parts = [];",
    "  for (var i = common; i < base.length; i++) \x7b",
    "    parts.push('..');",
    "  \x7d",
    "  return '/' + parts.concat(target.slice(common)).join('/');",
    "\x7d",
    "",
    "function __enpaki_not_found(request, parent) \x7b",
    "  var error = new Error(\"Cannot find module '\" + request + \"'\" +",
    "    (parent === null ? '' : \" from '\" + parent + \"'\"));",
    "  error.code = 'MODULE_NOT_FOUND';",
    "  return error;",
    "\x7d",
    "",
    "function __enpaki_host(request, parent) \x7b",
    "  if (__enpaki_host_require === null) \x7b",
    "    throw __enpaki_not_found(request, parent);",
    "  \x7d",
    "  if (__enpaki_is_relative(request)) \x7b",
    "    var dir = __enpaki_dirname(parent === null ? __enpaki_entry : parent);",
    "    return __enpaki_host_require('.' + __enpaki_join(dir, request));",
    "  \x7d",
    "  return __enpaki_host_require(request);",
    "\x7d",
    "",
    "function __enpaki_bind(identity) \x7b",
    "  var bound = function (request) \x7b",
    "    return __enpaki_require(identity, request);",
    "  \x7d;",
    "  bound.resolve = function (request) \x7b",
    "    if (__enpaki_is_builtin(request)) \x7b",
    "      return request;",
    "    \x7d",
    "    var found = __enpaki_locate(request, identity);",
    "    if (found === null) \x7b",
    "      throw __enpaki_not_found(request, identity);",
    "    \x7d",
    "    return found;",
    "  \x7d;",
    "  bound.main = __enpaki_cache[__enpaki_entry];",
    "  bound.cache = __enpaki_cache;",
    "  return bound;",
    "\x7d",
    "",
    "function __enpaki_load(identity, parent) \x7b",
    "  var cached = __enpaki_cache[identity];",
    "  if (cached) \x7b",
    "    return cached.exports;",
    "  \x7d",
    "  var module = __enpaki_cache[identity] = \x7b",
    "    id: identity,",
    "    exports: \x7b\x7d,",
    "    loaded: false,",
    "    parent: parent === null ? null : (__enpaki_cache[parent] || null),",
    "    filename: __enpaki_host_path(identity)",
    "  \x7d;",
    "  __enpaki_modules[identity].call(",
    "    module.exports,",
    "    module.exports,",
    "    __enpaki_bind(identity),",
    "    module,",
    "    module.filename,",
    "    __enpaki_host_path(__enpaki_dirname(identity))",
    "  );",
    "  module.loaded = true;",
    "  return module.exports;",
    "\x7d",
    "",
    "function __enpaki_require(parent, request) \x7b",
    "  if (__enpaki_is_builtin(request)) \x7b",
    "    return __enpaki_host(request, parent);",
    "  \x7d",
    "  var identity = __enpaki_locate(request, parent);",
    "  if (identity !== null) \x7b",
    "    return __enpaki_load(identity, parent);",
    "  \x7d",
    "  if (__enpaki_is_absolute(request) && __enpaki_host_dirname === null) \x7b",
    "    throw __enpaki_not_found(request, parent);",
    "  \x7d",
    "  return __enpaki_host(request, parent);",
    "\x7d"]

/-- **The loader**, each line ended. -/
def text : String := String.join (lines.map (· ++ "\n"))

end ScriptBundle.Loader
