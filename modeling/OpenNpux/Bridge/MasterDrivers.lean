import Mathlib.Data.Fintype.Pi

/-!
# The asynchronous AXI master drivers

Each driver is a clock observer: it samples the core at a falling edge, drives its
own outputs, lets the core settle, and samples again. The pins a falling edge reads
are therefore an argument. The deferred callback only queues responses, which no
later statement of the edge reads, so an edge returns the request it hands over and
the caller runs the callback on it. Payload fields have the bridge's names without the
`addr_bits_`, `read_data_bits_` and `write_data_bits_` prefixes of the generated model.
-/

namespace OpenNpux.Bridge

/-! ## Payloads -/

/-- The width `CORAL_GEM5_AXI_DATA_BYTES` of the data bus. -/
def axiDataBytes : Nat := 16

abbrev AxiWord := Fin axiDataBytes → UInt8

structure AxiAddr where
  addr : UInt32 := 0
  prot : UInt8 := 0
  id : UInt8 := 0
  len : UInt8 := 0
  size : UInt8 := 0
  burst : UInt8 := 0
  lock : UInt8 := 0
  cache : UInt8 := 0
  qos : UInt8 := 0
  region : UInt8 := 0
deriving DecidableEq, Inhabited

structure AxiRData where
  data : AxiWord := fun _ => 0
  id : UInt8 := 0
  resp : UInt8 := 0
  last : Bool := false
deriving DecidableEq, Inhabited

structure AxiWData where
  data : AxiWord := fun _ => 0
  strb : UInt16 := 0
  last : Bool := false
deriving DecidableEq, Inhabited

structure AxiWResp where
  id : UInt8 := 0
  resp : UInt8 := 0
deriving DecidableEq, Inhabited

/-! ## Reads -/

structure ReadDriver where
  responses : List AxiRData := []
  request : AxiAddr := {}
  requestPending : Bool := false
  requestSeen : Bool := false
  responseHandshakePending : Bool := false
  addrReady : Bool := true
  dataValid : Bool := false
  data : AxiRData := {}
deriving DecidableEq

/-- The AR channel is sampled on entry, `RREADY` after the core has seen the new outputs. -/
structure ReadPins where
  addrValid : Bool
  addr : AxiAddr
  dataReady : Bool

namespace ReadDriver

def queueResponse (d : ReadDriver) (response : AxiRData) : ReadDriver :=
  { d with responses := d.responses ++ [response] }

/-- Popping the accepted beat; the last beat of a burst releases the request. -/
def retireResponse (d : ReadDriver) : ReadDriver :=
  match d.responses with
  | [] => d
  | response :: rest =>
    { d with
      responses := rest
      requestPending := if response.last then false else d.requestPending }

def driveResponse (d : ReadDriver) : ReadDriver :=
  { d with dataValid := !d.responses.isEmpty, data := d.responses.headD d.data }

def onFallingEdge (d : ReadDriver) (pins : ReadPins) : ReadDriver × Option AxiAddr :=
  let addrHandshake := pins.addrValid && d.addrReady
  let d := if d.responseHandshakePending then d.retireResponse else d
  let d := if pins.addrValid then d else { d with requestSeen := false }
  let d := { d with addrReady := !d.requestPending }
  let d := d.driveResponse
  let d := { d with responseHandshakePending := d.dataValid && pins.dataReady }
  if addrHandshake && !d.requestSeen && !d.requestPending then
    ({ d with requestSeen := true, request := pins.addr, requestPending := true,
              addrReady := false }, some pins.addr)
  else
    (d, none)

end ReadDriver

structure WriteDriver where
  responses : List AxiWResp := []
  requestAddr : AxiAddr := {}
  requestData : List AxiWData := []
  requestPending : Bool := false
  addrCaptured : Bool := false
  dataComplete : Bool := false
  requestSubmitted : Bool := false
  responseHandshakePending : Bool := false
  addrReady : Bool := false
  dataReady : Bool := false
  respValid : Bool := false
  resp : AxiWResp := {}
deriving DecidableEq

structure WritePins where
  addrValid : Bool
  addr : AxiAddr
  dataValid : Bool
  data : AxiWData
  respReady : Bool

namespace WriteDriver

def queueResponse (d : WriteDriver) (response : AxiWResp) : WriteDriver :=
  { d with responses := d.responses ++ [response] }

/-- The accepted response clears everything the request had collected. -/
def retireResponse (d : WriteDriver) : WriteDriver :=
  { d with
    responses := d.responses.tail
    requestPending := false
    addrCaptured := false
    dataComplete := false
    requestSubmitted := false
    requestData := [] }

def driveResponse (d : WriteDriver) : WriteDriver :=
  { d with respValid := !d.responses.isEmpty, resp := d.responses.headD d.resp }

def captureAddr (d : WriteDriver) (handshake : Bool) (addr : AxiAddr) : WriteDriver :=
  if handshake && !d.addrCaptured then
    { d with addrCaptured := true, requestAddr := addr }
  else d

def captureData (d : WriteDriver) (handshake : Bool) (beat : AxiWData) : WriteDriver :=
  if handshake && !d.dataComplete then
    { d with requestData := d.requestData ++ [beat], dataComplete := beat.last }
  else d

def submit (d : WriteDriver) : WriteDriver × Option (AxiAddr × List AxiWData) :=
  if d.addrCaptured && d.dataComplete && !d.requestSubmitted then
    ({ d with requestSubmitted := true, requestPending := true },
      some (d.requestAddr, d.requestData))
  else (d, none)

def driveReady (d : WriteDriver) : WriteDriver :=
  { d with
    addrReady := !d.requestPending && !d.addrCaptured
    dataReady := !d.requestPending && !d.dataComplete && decide (d.requestData.length < 256) }

def onFallingEdge (d : WriteDriver) (pins : WritePins) :
    WriteDriver × Option (AxiAddr × List AxiWData) :=
  let addrHandshake := pins.addrValid && d.addrReady
  let dataHandshake := pins.dataValid && d.dataReady
  let d := if d.responseHandshakePending then d.retireResponse else d
  let d := d.driveResponse
  let d := { d with responseHandshakePending := d.respValid && pins.respReady }
  let d := d.captureAddr addrHandshake pins.addr
  let d := d.captureData dataHandshake pins.data
  let (d, request) := d.submit
  (d.driveReady, request)

end WriteDriver
end OpenNpux.Bridge
