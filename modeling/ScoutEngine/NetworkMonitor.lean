import ScoutEngine.Value

/-!
# The network monitor

* `NetworkMonitor` with `start`, `stop`, `query`, `downloads`; the callbacks `onRequest` and
  `onResponse` of the browser's websocket thread, as the messages `NetMsg` that `receive` handles.
* `isDownload`, `downloadFilename`, `responseEvent`: what becomes of a response.
-/

set_option autoImplicit false

namespace ScoutEngine

/-- A captured response. -/
structure NetworkEvent where
  url : String
  method : String
  status : PyVal
  triggeredDownload : Bool
  downloadFilename : Option String

/-- What the browser reports to the monitor's callbacks. -/
inductive NetMsg where
  | request (id url method : String)
  | response (id url : String) (status : PyVal) (headers : Dict String String)

/-- The monitor's fields. -/
structure NetworkMonitor where
  events : List NetworkEvent := []
  monitoring : Bool := false
  urlPattern : Option (String → Bool) := none
  downloadEvent : Bool := false
  pendingRequests : Dict String (String × String) := []

namespace NetworkMonitor

variable [PyText]

/-- URL prefixes of the browser's own traffic. -/
def internalPrefixes : List String :=
  ["chrome://", "chrome-extension://", "chrome-untrusted://", "devtools://", "data:", "about:"]

/-- A URL that the callbacks ignore. -/
def isInternal (url : String) : Bool :=
  internalPrefixes.any fun p => p.toList.isPrefixOf url.toList

/-- The fields after `start`, before the callbacks are registered; a bad pattern raises first. -/
def start (urlPattern : Option String) (m : NetworkMonitor) : Except PyExc NetworkMonitor := do
  let filter ← match urlPattern with
    | some p => if p = "" then pure none else (PyText.compile p).map some
    | none => pure none
  pure { m with
    urlPattern := filter, monitoring := true, downloadEvent := false, events := [],
    pendingRequests := [] }

/-- `stop`: the captured events stay. -/
def stop (m : NetworkMonitor) : NetworkMonitor := { m with monitoring := false }

/-- `query`: the captured events whose URL matches. -/
def query (urlPattern : Option String) (m : NetworkMonitor) : Except PyExc (List NetworkEvent) :=
  match urlPattern with
  | some p =>
    if p = "" then .ok m.events
    else (PyText.compile p).map fun matchesUrl => m.events.filter fun e => matchesUrl e.url
  | none => .ok m.events

/-- What `wait_for_download` returns once its wait is over. -/
def downloads (m : NetworkMonitor) : List NetworkEvent := m.events.filter (·.triggeredDownload)

/-- The filter that both callbacks apply. -/
def captures (m : NetworkMonitor) (url : String) : Bool :=
  m.monitoring && !isInternal url && m.urlPattern.all (· url)

/-- `_on_request`. -/
def onRequest (m : NetworkMonitor) (id url method : String) : NetworkMonitor :=
  if m.captures url then
    { m with pendingRequests := Dict.set id (url, method) m.pendingRequests }
  else m

/-- The `Content-Disposition` header, under its two usual spellings. -/
def contentDisposition (headers : Dict String String) : String :=
  (Dict.get "content-disposition" headers).getD
    ((Dict.get "Content-Disposition" headers).getD "")

/-- `text.strip('" ')`. -/
def stripQuotes (text : String) : String :=
  let junk (c : Char) : Bool := c == '"' || c == ' '
  String.ofList ((text.toList.dropWhile junk).reverse.dropWhile junk).reverse

/-- `_on_response`. -/
def onResponse (m : NetworkMonitor) (id url : String) (status : PyVal)
    (headers : Dict String String) : NetworkMonitor :=
  if m.captures url then
    let meta? := Dict.get id m.pendingRequests
    let disposition := contentDisposition headers
    let isDownload := disposition ≠ "" && containsStr "attachment" (PyText.lower disposition)
    let filename :=
      if isDownload && containsStr "filename=" disposition then
        ((splitStr "filename=" disposition).getLast?).map stripQuotes
      else none
    { m with
      pendingRequests := m.pendingRequests.filter (·.1 ≠ id)
      events := m.events ++ [{
        url := if url ≠ "" then url else (meta?.map Prod.fst).getD ""
        method := (meta?.map Prod.snd).getD "GET"
        status := status
        triggeredDownload := isDownload
        downloadFilename := filename }]
      downloadEvent := m.downloadEvent || isDownload }
  else m

/-! ## The event of a response -/

/-- The response is taken for a download. -/
def isDownload (headers : Dict String String) : Bool :=
  contentDisposition headers ≠ "" &&
    containsStr "attachment" (PyText.lower (contentDisposition headers))

/-- The file name that is read off the header of a download. -/
def downloadFilename (headers : Dict String String) : Option String :=
  if isDownload headers && containsStr "filename=" (contentDisposition headers) then
    ((splitStr "filename=" (contentDisposition headers)).getLast?).map stripQuotes
  else none

/-- The event of a response, with the URL and the method of its request. -/
def responseEvent (meta? : Option (String × String)) (url : String) (status : PyVal)
    (headers : Dict String String) : NetworkEvent where
  url := if url ≠ "" then url else (meta?.map Prod.fst).getD ""
  method := (meta?.map Prod.snd).getD "GET"
  status := status
  triggeredDownload := isDownload headers
  downloadFilename := downloadFilename headers

theorem onResponse_eq (m : NetworkMonitor) (id url : String) (status : PyVal)
    (headers : Dict String String) : m.onResponse id url status headers =
      if m.captures url then
        { m with
          pendingRequests := m.pendingRequests.filter (·.1 ≠ id)
          events := m.events ++
            [responseEvent (Dict.get id m.pendingRequests) url status headers]
          downloadEvent := m.downloadEvent || isDownload headers }
      else m := rfl

/-- One callback. -/
def receive (m : NetworkMonitor) : NetMsg → NetworkMonitor
  | .request id url method => m.onRequest id url method
  | .response id url status headers => m.onResponse id url status headers

end NetworkMonitor

end ScoutEngine
