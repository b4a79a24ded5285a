/-!
# StarQpu.Http.Message

**Requests and replies.** A request is what a client asks for by its address; a *sent* request is
what a server sees of it.
-/

namespace StarQpu.Http

/-- The methods that are used. -/
inductive Method where
  | get
  | post
  deriving DecidableEq

/-- The name of a method. -/
def Method.name : Method → String
  | .get => "GET"
  | .post => "POST"

/-- What a request carries. -/
structure Body where
  contentType : String
  text : String
  deriving DecidableEq

/-- A JSON document as the body of a request. -/
def Body.ofJson (text : String) : Body := ⟨"application/json", text⟩

/-- A form as the body of a request. -/
def Body.ofForm (text : String) : Body := ⟨"application/x-www-form-urlencoded", text⟩

/-- A request as a client makes it. -/
structure Request where
  method : Method
  url : String
  authorization : Option String := none
  userAgent : Option String := none
  body : Option Body := none
  deriving DecidableEq

/-- A request as a server sees it. -/
structure SentRequest where
  method : Method
  /-- The path, with the query if there is one. -/
  path : String
  authorization : Option String
  userAgent : Option String
  body : Option Body
  deriving DecidableEq

/-- The reply of a server. -/
structure Reply where
  status : Nat
  body : String
  deriving DecidableEq

/-- Is the status one of success? -/
def Reply.isSuccess (r : Reply) : Bool := 200 ≤ r.status && r.status < 300

/-- Does the status only announce another reply? -/
def Reply.isInterim (r : Reply) : Bool := 100 ≤ r.status && r.status < 200 && r.status ≠ 101

/-- Is the status a number of three digits, and the last word on the request? -/
def Reply.isFinal (r : Reply) : Bool := 100 ≤ r.status && r.status < 1000 && !r.isInterim

/-- The phrases that belong to the states of final replies. -/
def phrases : List (Nat × String) :=
  [(101, "Switching Protocols"), (200, "OK"), (201, "Created"), (202, "Accepted"),
    (203, "Non Authoritative Information"), (204, "No Content"), (205, "Reset Content"),
    (206, "Partial Content"), (207, "Multi-Status"), (208, "Already Reported"), (226, "IM Used"),
    (300, "Multiple Choices"), (301, "Moved Permanently"), (302, "Found"), (303, "See Other"),
    (304, "Not Modified"), (305, "Use Proxy"), (307, "Temporary Redirect"),
    (308, "Permanent Redirect"), (400, "Bad Request"), (401, "Unauthorized"),
    (402, "Payment Required"), (403, "Forbidden"), (404, "Not Found"),
    (405, "Method Not Allowed"), (406, "Not Acceptable"), (407, "Proxy Authentication Required"),
    (408, "Request Timeout"), (409, "Conflict"), (410, "Gone"), (411, "Length Required"),
    (412, "Precondition Failed"), (413, "Payload Too Large"), (414, "URI Too Long"),
    (415, "Unsupported Media Type"), (416, "Range Not Satisfiable"),
    (417, "Expectation Failed"), (418, "I'm a teapot"), (421, "Misdirected Request"),
    (422, "Unprocessable Entity"), (423, "Locked"), (424, "Failed Dependency"),
    (425, "Too Early"), (426, "Upgrade Required"), (428, "Precondition Required"),
    (429, "Too Many Requests"), (431, "Request Header Fields Too Large"),
    (451, "Unavailable For Legal Reasons"), (500, "Internal Server Error"),
    (501, "Not Implemented"), (502, "Bad Gateway"), (503, "Service Unavailable"),
    (504, "Gateway Timeout"), (505, "HTTP Version Not Supported"),
    (506, "Variant Also Negotiates"), (507, "Insufficient Storage"), (508, "Loop Detected"),
    (510, "Not Extended"), (511, "Network Authentication Required")]

/-- The status with the phrase that belongs to it. -/
def Reply.describe (r : Reply) : String :=
  s!"{r.status} " ++ (phrases.lookup r.status).getD "<unknown status code>"

/-- The text of a reply; for some states there is none. -/
def Reply.text (r : Reply) : String :=
  if r.status = 101 || r.status = 204 || r.status = 304 then "" else r.body

/-- A text in a header as the other side reads it: without the spaces and tabs at its ends. -/
def headerValue (s : String) : String :=
  let isPadding (c : Char) : Bool := c = ' ' || c = '\t'
  String.ofList ((s.toList.dropWhile isPadding).reverse.dropWhile isPadding).reverse

/-- May the character stand in a header? -/
def isHeaderChar (c : Char) : Bool := (0x20 ≤ c.toNat && c.toNat ≠ 0x7F) || c = '\t'

/-- May the text stand in a header? -/
def isHeaderText (s : String) : Bool := s.toList.all isHeaderChar

/-- Can the request be sent at all? -/
def Request.isSendable (r : Request) : Bool :=
  r.authorization.all isHeaderText && r.userAgent.all isHeaderText

/-- The request as the server sees it, under the given path. -/
def Request.sentTo (r : Request) (path : String) : SentRequest :=
  ⟨r.method, path, r.authorization.map headerValue, r.userAgent.map headerValue, r.body⟩

end StarQpu.Http
