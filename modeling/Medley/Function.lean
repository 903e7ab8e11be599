/-!
The functions a template can name: the built-in ones, the two that translate, and those of
the host program, known by name.
-/
namespace Medley

inductive Builtin where
  | formatDate | timeAgo | shortTimeAgo
  | upper | lower | capitalize | title | trim | slugify | truncate | replace
  | round | formatNumber | formatPrice | percent
  | length | size | first | last | slice | sort | reverse | join | unique | filter | map
  | keys | values | has
  | equal | unequal | greater | less | atLeast | atMost | all | any | negate | choose | except
  | json | fallback | typeOf | stringify | log | urlEncode | urlDecode
  | escape | unescape | base64 | digest
  deriving DecidableEq, Repr

inductive Function where
  | builtin (b : Builtin)
  | translate
  | translatePlural
  | host (name : String)
  deriving DecidableEq, Repr

structure Signature where
  name : String
  required : List String
  optional : Nat
  variadic : Bool
  deriving Repr

namespace Builtin

def signature : Builtin → Signature
  | formatDate => ⟨"format_date", ["value"], 1, false⟩
  | timeAgo => ⟨"time_ago", ["value"], 1, false⟩
  | shortTimeAgo => ⟨"short_time_ago", ["value"], 1, false⟩
  | upper => ⟨"upper", ["value"], 0, false⟩
  | lower => ⟨"lower", ["value"], 0, false⟩
  | capitalize => ⟨"capitalize", ["value"], 0, false⟩
  | title => ⟨"title", ["value"], 0, false⟩
  | trim => ⟨"trim", ["value"], 0, false⟩
  | slugify => ⟨"slugify", ["value"], 0, false⟩
  | truncate => ⟨"truncate", ["value"], 2, false⟩
  | replace => ⟨"replace", ["value", "search"], 1, false⟩
  | round => ⟨"round_number", ["value"], 1, false⟩
  | formatNumber => ⟨"format_number", ["value"], 1, false⟩
  | formatPrice => ⟨"format_price", ["value"], 1, false⟩
  | percent => ⟨"percent", ["value"], 1, false⟩
  | length => ⟨"length", ["value"], 0, false⟩
  | size => ⟨"size", ["value"], 0, false⟩
  | first => ⟨"first", ["value"], 0, false⟩
  | last => ⟨"last", ["value"], 0, false⟩
  | slice => ⟨"slice_", ["value"], 2, false⟩
  | sort => ⟨"sort", ["value"], 1, false⟩
  | reverse => ⟨"reverse", ["value"], 0, false⟩
  | join => ⟨"join", ["value"], 1, false⟩
  | unique => ⟨"unique", ["value"], 0, false⟩
  | filter => ⟨"filter_", ["value", "key"], 1, false⟩
  | map => ⟨"map_", ["value", "key"], 0, false⟩
  | keys => ⟨"keys", ["value"], 0, false⟩
  | values => ⟨"values", ["value"], 0, false⟩
  | has => ⟨"has", ["value", "key"], 0, false⟩
  | equal => ⟨"eq", ["a", "b"], 0, false⟩
  | unequal => ⟨"ne", ["a", "b"], 0, false⟩
  | greater => ⟨"gt", ["a", "b"], 0, false⟩
  | less => ⟨"lt", ["a", "b"], 0, false⟩
  | atLeast => ⟨"gte", ["a", "b"], 0, false⟩
  | atMost => ⟨"lte", ["a", "b"], 0, false⟩
  | all => ⟨"and_", [], 0, true⟩
  | any => ⟨"or_", [], 0, true⟩
  | negate => ⟨"not_", ["value"], 0, false⟩
  | choose => ⟨"when", ["condition", "truthy"], 1, false⟩
  | except => ⟨"unless", ["condition", "content"], 0, false⟩
  | json => ⟨"to_json", ["value"], 1, false⟩
  | fallback => ⟨"default", ["value"], 1, false⟩
  | typeOf => ⟨"typeof", ["value"], 0, false⟩
  | stringify => ⟨"stringify", ["value"], 0, false⟩
  | log => ⟨"debug", ["value"], 0, false⟩
  | urlEncode => ⟨"url_encode", ["value"], 0, false⟩
  | urlDecode => ⟨"url_decode", ["value"], 0, false⟩
  | escape => ⟨"escape", ["value"], 0, false⟩
  | unescape => ⟨"unescape", ["value"], 0, false⟩
  | base64 => ⟨"to_base64", ["value"], 0, false⟩
  | digest => ⟨"md5", ["value"], 0, false⟩

/- What every environment starts with, in the order in which it lists them. -/
def helpers : List (String × Builtin) :=
  [("format_date", formatDate), ("time_ago", timeAgo),
   ("upper", upper), ("uppercase", upper), ("lower", lower), ("lowercase", lower),
   ("capitalize", capitalize), ("title", title), ("trim", trim), ("slugify", slugify),
   ("truncate", truncate), ("replace", replace),
   ("round", round), ("format_number", formatNumber), ("format_price", formatPrice),
   ("currency", formatPrice), ("percent", percent),
   ("length", length), ("first", first), ("last", last), ("slice", slice), ("sort", sort),
   ("reverse", reverse), ("join", join), ("unique", unique), ("filter", filter), ("map", map),
   ("keys", keys), ("values", values), ("has", has),
   ("eq", equal), ("ne", unequal), ("gt", greater), ("lt", less), ("gte", atLeast),
   ("lte", atMost), ("and", all), ("or", any), ("not", negate), ("when", choose),
   ("unless", except),
   ("json", json), ("default", fallback), ("typeof", typeOf), ("stringify", stringify),
   ("debug", log), ("url_encode", urlEncode), ("url_decode", urlDecode),
   ("formatDate", formatDate), ("timeAgo", timeAgo), ("formatNumber", formatNumber),
   ("formatPrice", formatPrice), ("urlEncode", urlEncode), ("urlDecode", urlDecode)]

def filters : List (String × Builtin) :=
  [("upper", upper), ("lower", lower), ("title", title), ("capitalize", capitalize),
   ("trim", trim), ("truncate", truncate), ("escape", escape), ("unescape", unescape),
   ("currency", formatPrice), ("percent", percent), ("round", round), ("size", size),
   ("length", size), ("join", join), ("first", first), ("last", last), ("sort", sort),
   ("reverse", reverse), ("unique", unique), ("date", formatDate), ("timeago", shortTimeAgo),
   ("keys", keys), ("values", values), ("default", fallback), ("json", json),
   ("url_encode", urlEncode), ("url_decode", urlDecode), ("base64", base64), ("md5", digest),
   ("slugify", slugify)]

end Builtin

namespace Function

def translateSignature : Signature := ⟨"i18n_helpers.<locals>.t", ["key"], 1, false⟩

def pluralSignature : Signature := ⟨"i18n_helpers.<locals>.tn", ["key", "count"], 1, false⟩

end Function
end Medley
