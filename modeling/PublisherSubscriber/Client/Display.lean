import PublisherSubscriber.Shared.ArrayString

/-!
# What a client shows of a response

`logResponse` builds one text and logs it.  A timestamp is shown as a date:
`formatTimestamp` is the text that `strftime` writes for the result of
`localtime`.  There is none if that result is null, as it is for a year that is
too large for an `int`, and none if the text does not fit the array of 21 bytes,
as for every year after 9999: then `strftime` leaves the array without a
terminating zero.  What the client does with either is undefined.
-/

namespace PublisherSubscriber

open CommunicationParameters

/-- How a function of the client ends when it does not return. -/
inductive Failure
  | exception (thrown : CppException)
  /-- A null date is dereferenced, or an array is read that has no end. -/
  | undefined
  deriving DecidableEq, Repr

inductive LogLevel
  | info
  | error
  deriving DecidableEq, Repr

/-- The member is read even if it was never assigned. -/
def Response.getStatusCode (indeterminate : ℤ) (r : Response) : Statuscode :=
  r.statusCode.getD (.ofInt indeterminate)

namespace Client

def statusText : Statuscode → Text
  | .success => ascii "Success"
  | .failed => ascii "Failed"
  | .invalidParameter => ascii "Invalid Parameter"
  | .internalError => ascii "Internal Error"
  | .unnamed n => ascii "Unknown status code: " ++ to_string n

def header (indeterminate : ℤ) (response : Response) (senderIp senderPort : Text) : Text :=
  ascii "Received response from: " ++ senderIp ++ ascii ":" ++ senderPort ++ ascii "\n" ++
    ascii "Status: " ++ statusText (response.getStatusCode indeterminate)

/-- The cases of the switch over the parameters. -/
def argumentText (formatTimestamp : ℤ → Option Text) (parameter : CommunicationParameters)
    (value : Text) : Except Failure Text :=
  match parameter with
  | topics =>
      ((arrayStringToVectorString value).mapError .exception).map fun elements ↦
        ascii "\nTopics: " ++ Separated.joinByValue (ascii ", ") elements
  | messageTimestamp =>
      ((stoll value).mapError .exception).bind fun timestamp ↦
        match formatTimestamp timestamp with
        | some formattedTimestamp => .ok (ascii "\nMessage-Timestamp: " ++ formattedTimestamp)
        | none => .error .undefined
  | subscribers =>
      ((arrayStringToVectorString value).mapError .exception).map fun elements ↦
        ascii "\nSubscribers: " ++ Separated.joinByValue (ascii ", ") elements
  | _ => .ok (ascii "\n" ++ communicationParameterToStringDictionary parameter ++ ascii ": " ++
      value)

/-- The loop over the arguments of the response. -/
def logArguments (formatTimestamp : ℤ → Option Text) (response : Response) :
    List CommunicationParameters → Text → Except Failure Text
  | [], logString => .ok logString
  | parameter :: parameters, logString =>
      ((response.getResponseArgument parameter).mapError .exception).bind fun value ↦
        (argumentText formatTimestamp parameter value).bind fun text ↦
          logArguments formatTimestamp response parameters (logString ++ text)

/-- The level and the text that are logged; the arguments of a success only. -/
def logResponse (formatTimestamp : ℤ → Option Text) (indeterminate : ℤ) (response : Response)
    (senderIp senderPort : Text) : Except Failure (LogLevel × Text) :=
  let logString := header indeterminate response senderIp senderPort
  if response.getStatusCode indeterminate ≠ .success then .ok (.error, logString)
  else (logArguments formatTimestamp response response.availableResponseArguments logString).map
    fun text ↦ (.info, text)

/-! ## What is shown of a success -/

section

variable {formatTimestamp : ℤ → Option Text} {indeterminate : ℤ} {response : Response}
  {parameter : CommunicationParameters} {value text : Text}

theorem header_of_success (h : response.statusCode = some .success) (senderIp senderPort : Text) :
    header indeterminate response senderIp senderPort =
      ascii "Received response from: " ++ senderIp ++ ascii ":" ++ senderPort ++ ascii "\n" ++
        ascii "Status: " ++ ascii "Success" := by
  simp only [header, Response.getStatusCode, h, Option.getD_some, statusText]

theorem logResponse_of_success (h : response.statusCode = some .success)
    {senderIp senderPort : Text} :
    logResponse formatTimestamp indeterminate response senderIp senderPort =
      (logArguments formatTimestamp response response.availableResponseArguments
        (header indeterminate response senderIp senderPort)).map fun text ↦ (.info, text) := by
  simp only [logResponse, Response.getStatusCode, h, Option.getD_some, ne_eq, not_true_eq_false,
    if_false]

theorem logArguments_cons (hvalue : response.getResponseArgument parameter = .ok value)
    (htext : argumentText formatTimestamp parameter value = .ok text)
    (parameters : List CommunicationParameters) (logString : Text) :
    logArguments formatTimestamp response (parameter :: parameters) logString =
      logArguments formatTimestamp response parameters (logString ++ text) := by
  simp only [logArguments, hvalue, Except.mapError, Except.bind, htext]

/-- A list whose elements are plain and distinct is shown with commas and blanks between them. -/
theorem argumentText_of_list (formatTimestamp : ℤ → Option Text) {elements : List Text}
    (hnodup : elements.Nodup) (h : arrayStringToVectorString value = .ok elements) :
    argumentText formatTimestamp topics value =
        .ok (ascii "\nTopics: " ++ List.intercalate (ascii ", ") elements) ∧
      argumentText formatTimestamp subscribers value =
        .ok (ascii "\nSubscribers: " ++ List.intercalate (ascii ", ") elements) := by
  simp only [argumentText, h, Except.mapError, Except.map,
    Separated.joinByValue_eq_intercalate (ascii ", ") hnodup, and_self]

theorem argumentText_of_timestamp {timestamp : ℤ} (hvalue : stoll value = .ok timestamp)
    (htext : formatTimestamp timestamp = some text) :
    argumentText formatTimestamp messageTimestamp value =
      .ok (ascii "\nMessage-Timestamp: " ++ text) := by
  simp only [argumentText, hvalue, Except.mapError, Except.bind, htext]

end

end Client

end PublisherSubscriber
