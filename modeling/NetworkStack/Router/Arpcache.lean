import NetworkStack.Lib.Bytes

/-!
# The ARP cache

The cache has a fixed array of mappings and a list of requests, each with the packets
that wait for it. `time(NULL)` is an argument. A pointer to a request is the `id` the
request was created with. Memory is taken to be available, and each operation holds the
lock.
-/

namespace NetworkStack.Router

/-- An IPv4 address as the host has loaded it. -/
abbrev Addr := BitVec 32

/-- An Ethernet address, first byte lowest. -/
abbrev Mac := BitVec 48

/-- The name of an interface, without the terminating zero byte. -/
abbrev IfName := List Byte

/-- `sr_IFACE_NAMELEN`. -/
def srIfaceNamelen : Nat := 32

/-- `SR_ARPCACHE_SZ`. -/
def srArpcacheSz : Nat := 100

/-- `SR_ARPCACHE_TO`, in seconds. -/
def srArpcacheTo : Int := 15

/-- `struct sr_packet`; its length is that of the buffer. -/
structure SrPacket where
  buf : List Byte
  iface : IfName
  deriving DecidableEq, Repr

/-- `struct sr_arpentry`. -/
structure SrArpentry where
  mac : Mac
  ip : Addr
  added : Int
  valid : Bool
  deriving DecidableEq, Repr

/-- `struct sr_arpreq`. -/
structure SrArpreq where
  id : Nat
  ip : Addr
  sent : Int
  timesSent : Nat
  packets : List SrPacket
  deriving DecidableEq, Repr

/-- `struct sr_arpcache`, and the number of requests created so far. -/
structure SrArpcache where
  entries : List SrArpentry
  requests : List SrArpreq
  created : Nat
  deriving DecidableEq, Repr

/-- The loop of `sr_arpcache_lookup`, with the entry found so far. -/
def lookupLoop (ip : Addr) : List SrArpentry → Option SrArpentry → Option SrArpentry
  | [], entry => entry
  | e :: rest, entry => lookupLoop ip rest (if e.valid ∧ e.ip = ip then some e else entry)

/-- `sr_arpcache_lookup`. -/
def srArpcacheLookup (cache : SrArpcache) (ip : Addr) : Option SrArpentry :=
  lookupLoop ip cache.entries none

/-- The first part of `sr_arpcache_queuereq`: the request for this address, which is new
at the head of the list unless there was one. -/
def findRequest (cache : SrArpcache) (ip : Addr) : SrArpcache × Nat :=
  match cache.requests.find? (·.ip = ip) with
  | some req => (cache, req.id)
  | none =>
      let req : SrArpreq :=
        { id := cache.created, ip := ip, sent := 0, timesSent := 0, packets := [] }
      ({ cache with requests := req :: cache.requests, created := cache.created + 1 }, req.id)

/-- An update through a pointer to a request. -/
def SrArpcache.update (cache : SrArpcache) (id : Nat) (f : SrArpreq → SrArpreq) : SrArpcache :=
  { cache with requests := cache.requests.map fun req => if req.id = id then f req else req }

/-- `sr_arpcache_queuereq`. -/
def srArpcacheQueuereq (cache : SrArpcache) (ip : Addr) (packet : List Byte) (iface : IfName) :
    SrArpcache × Nat :=
  let (cache, id) := findRequest cache ip
  if packet = [] then (cache, id)
  else
    let newPkt : SrPacket := { buf := packet, iface := iface.take srIfaceNamelen }
    (cache.update id fun req => { req with packets := newPkt :: req.packets }, id)

/-- The mapping goes into the first slot that is not valid, if there is one. -/
def insertEntry (entries : List SrArpentry) (mac : Mac) (ip : Addr) (now : Int) : List SrArpentry :=
  match entries.findIdx? (¬·.valid) with
  | some k => entries.set k { mac := mac, ip := ip, added := now, valid := true }
  | none => entries

/-- `sr_arpcache_insert`: the request that was taken off the list. -/
def srArpcacheInsert (cache : SrArpcache) (mac : Mac) (ip : Addr) (now : Int) :
    SrArpcache × Option SrArpreq :=
  ({ cache with
      entries := insertEntry cache.entries mac ip now
      requests := cache.requests.eraseP (·.ip = ip) },
    cache.requests.find? (·.ip = ip))

/-- `sr_arpreq_destroy`: the request leaves the list, if it is on it. -/
def srArpreqDestroy (cache : SrArpcache) (entry : Option SrArpreq) : SrArpcache :=
  match entry with
  | some entry => { cache with requests := cache.requests.eraseP (·.id = entry.id) }
  | none => cache

/-- `sr_arpcache_init`. -/
def srArpcacheInit : SrArpcache where
  entries := List.replicate srArpcacheSz { mac := 0, ip := 0, added := 0, valid := false }
  requests := []
  created := 0

/-- The first loop of `sr_arpcache_timeout`. -/
def expireEntries (entries : List SrArpentry) (curtime : Int) : List SrArpentry :=
  entries.map fun e =>
    if e.valid ∧ curtime - e.added > srArpcacheTo then { e with valid := false } else e

end NetworkStack.Router
