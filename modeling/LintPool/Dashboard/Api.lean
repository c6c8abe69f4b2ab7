import LintPool.Dashboard.Basic
import LintPool.History.Record

/-!
# The interface of the dashboard

The dashboard answers requests for its health, for the progress of the current job and for past
jobs.

## Main definitions

* `LintPool.Dashboard.Response` : an answer.
* `LintPool.Dashboard.PastJobs` : what is known of past jobs.
* `LintPool.Dashboard.respond` : the answer to a request.
-/

namespace LintPool.Dashboard

/-- The body of an answer. -/
inductive Body where
  | json (v : Json)
  | text (s : Bytes)

/-- An answer to a request. -/
structure Response where
  status : Nat
  body : Body

/-- The class of a status for the log. -/
def statusClass (status : Int) : Bytes :=
  if 500 ≤ status then utf8 "5xx"
  else if 400 ≤ status then utf8 "4xx"
  else if 300 ≤ status then utf8 "3xx"
  else utf8 "2xx"

/-- What is known of past jobs. -/
inductive PastJobs where
  /-- No history is kept. -/
  | untracked
  /-- The history cannot be read. -/
  | unreadable
  /-- The newest jobs first; there may be no list at all. -/
  | known (jobs : Option (List History.JobRecord))

/-- The number of past jobs that are shown. -/
def shownJobs : Nat := 20

/-- An answer that is an error. -/
def failure (status : Nat) (message : String) : Response :=
  { status, body := .json (.object [Json.member "error" (.text (utf8 message))]) }

/-- The answer on past jobs. -/
def jobsResponse : PastJobs → Response
  | .untracked => failure 404 "job history is not configured"
  | .unreadable => failure 500 "could not list jobs"
  | .known none => { status := 200, body := .json .null }
  | .known (some jobs) =>
    { status := 200
      body := .json (.array ((jobs.take shownJobs).map History.JobRecord.toJson)) }

/-- The answer on the dashboard's health. -/
def healthResponse (d : Dashboard) (uptime : Bytes) : Response :=
  { status := 200
    body := .json <| .object
      [Json.member "status" (.text (utf8 "ok")), Json.member "subscribers" (.int d.hub.size),
        Json.member "uptime" (.text uptime)] }

/-- What can be asked for. -/
inductive Route where
  | health
  | progress
  | jobs
  | stream
  deriving DecidableEq

/-- The route of a path. -/
def Route.ofPath? (path : Bytes) : Option Route :=
  if path == utf8 "/api/v1/health" then some .health
  else if path == utf8 "/api/v1/progress" then some .progress
  else if path == utf8 "/api/v1/jobs" then some .jobs
  else if path == utf8 "/ws" then some .stream
  else none

/-- The answer to a plain request for a route. A stream needs more than a plain request. -/
def answer (d : Dashboard) (past : PastJobs) (uptime : Bytes) : Route → Response
  | .health => healthResponse d uptime
  | .progress => { status := 200, body := .json d.progress.toJson }
  | .jobs => jobsResponse past
  | .stream => { status := 400, body := .text (utf8 "Bad Request\n") }

/-- The answer to a request for nothing. -/
def notFound : Response := { status := 404, body := .text (utf8 "404 page not found") }

/-- One byte of a text inside of markup. -/
def escapeByte (b : UInt8) : Bytes :=
  if b = byte '&' then utf8 "&amp;"
  else if b = byte '<' then utf8 "&lt;"
  else if b = byte '>' then utf8 "&gt;"
  else if b = byte '"' then utf8 "&#34;"
  else if b = byte '\'' then utf8 "&#39;"
  else [b]

/-- The answer that sends a reader to another place. -/
def moved (target : Bytes) : Response :=
  { status := 301
    body := .text (utf8 "<a href=\"" ++ target.flatMap escapeByte ++
      utf8 "\">Moved Permanently</a>.\n\n") }

/-- A path without a slash at its end, if there is one. -/
def withoutSlash? (path : Bytes) : Option Bytes :=
  if path.getLast? = some (byte '/') then some path.dropLast else none

/-- The answer to a request. A path with a slash too many is moved to the one without. -/
def respond (d : Dashboard) (past : PastJobs) (uptime method target : Bytes) : Response :=
  let path := target.takeWhile (· ≠ byte '?')
  let query := target.dropWhile (· ≠ byte '?')
  if method ≠ utf8 "GET" then notFound
  else
    match Route.ofPath? path with
    | some route => answer d past uptime route
    | none =>
      match withoutSlash? path with
      | some path => if (Route.ofPath? path).isSome then moved (path ++ query) else notFound
      | none => notFound

end LintPool.Dashboard
