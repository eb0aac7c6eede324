/-!
# Status codes and versions

Codes have three digits. `Status.phrase?` is the registered phrase of a code.
-/

namespace Routing

/-- A status code. -/
structure Status where
  /-- The number. -/
  code : Nat
  /-- It has three digits. -/
  threeDigits : 100 ≤ code ∧ code ≤ 999 := by decide
deriving DecidableEq

namespace Status

/-- The status with a number of three digits. -/
def ofNat? (n : Nat) : Option Status :=
  if h : 100 ≤ n ∧ n ≤ 999 then some ⟨n, h⟩ else none

/-- The request was answered. -/
def ok : Status := ⟨200, by decide⟩

/-- The request was answered, and there is no content. -/
def noContent : Status := ⟨204, by decide⟩

/-- The request is faulty. -/
def badRequest : Status := ⟨400, by decide⟩

/-- There is nothing at the target. -/
def notFound : Status := ⟨404, by decide⟩

/-- The request does not fit the state of the resource. -/
def conflict : Status := ⟨409, by decide⟩

/-- The service failed. -/
def internalError : Status := ⟨500, by decide⟩

/-- The registered phrases. -/
def phrases : List (Nat × String) := [
  (100, "Continue"), (101, "Switching Protocols"), (102, "Processing"),
  (200, "OK"), (201, "Created"), (202, "Accepted"), (203, "Non Authoritative Information"),
  (204, "No Content"), (205, "Reset Content"), (206, "Partial Content"), (207, "Multi-Status"),
  (208, "Already Reported"), (226, "IM Used"),
  (300, "Multiple Choices"), (301, "Moved Permanently"), (302, "Found"), (303, "See Other"),
  (304, "Not Modified"), (305, "Use Proxy"), (307, "Temporary Redirect"),
  (308, "Permanent Redirect"),
  (400, "Bad Request"), (401, "Unauthorized"), (402, "Payment Required"), (403, "Forbidden"),
  (404, "Not Found"), (405, "Method Not Allowed"), (406, "Not Acceptable"),
  (407, "Proxy Authentication Required"), (408, "Request Timeout"), (409, "Conflict"),
  (410, "Gone"), (411, "Length Required"), (412, "Precondition Failed"),
  (413, "Payload Too Large"), (414, "URI Too Long"), (415, "Unsupported Media Type"),
  (416, "Range Not Satisfiable"), (417, "Expectation Failed"), (418, "I'm a teapot"),
  (421, "Misdirected Request"), (422, "Unprocessable Entity"), (423, "Locked"),
  (424, "Failed Dependency"), (426, "Upgrade Required"), (428, "Precondition Required"),
  (429, "Too Many Requests"), (431, "Request Header Fields Too Large"),
  (451, "Unavailable For Legal Reasons"),
  (500, "Internal Server Error"), (501, "Not Implemented"), (502, "Bad Gateway"),
  (503, "Service Unavailable"), (504, "Gateway Timeout"), (505, "HTTP Version Not Supported"),
  (506, "Variant Also Negotiates"), (507, "Insufficient Storage"), (508, "Loop Detected"),
  (510, "Not Extended"), (511, "Network Authentication Required")]

/-- The registered phrase of a code. -/
def phrase? (s : Status) : Option String :=
  phrases.lookup s.code

end Status

/-- The version of the protocol that a message is written in. -/
inductive Version where
  /-- Version 0.9. -/
  | http09
  /-- Version 1.0. -/
  | http10
  /-- Version 1.1. -/
  | http11
  /-- Version 2.0. -/
  | http2
  /-- Version 3.0. -/
  | http3
deriving DecidableEq

/-- The text of a version. -/
def Version.text : Version → String
  | .http09 => "HTTP/0.9"
  | .http10 => "HTTP/1.0"
  | .http11 => "HTTP/1.1"
  | .http2 => "HTTP/2.0"
  | .http3 => "HTTP/3.0"

end Routing
