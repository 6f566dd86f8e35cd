import Mathlib.Data.List.AList

/-!
# The locator's node directory

`insonmnia/locator/server.go` keeps one record per Ethereum address: the endpoints
the peer announced and the time of the announce.  `Announce` takes the address from
the peer's authenticated TLS identity, never from the request, and replaces the
record whole; `Resolve` reads it back; the janitor deletes records older than
`NodeTTL`.  This file models the records, the identity extractor and the two locked
operations on the map; `Announce` itself is a step of the machine in `DirectoryRun`.
-/

namespace SonmCore.Directory

/-- `common.Address`: twenty bytes. -/
abbrev Address := BitVec 160

/-- Instants of the locator's clock and `time.Duration`s, both in nanoseconds. -/
abbrev Time := Int

abbrev Duration := Int

inductive Code where
  | dataLoss
  | unauthenticated
  deriving DecidableEq, Repr

/-- A Go `error` as the locator builds it: a gRPC status, or a plain text. -/
inductive Error where
  | status (code : Code) (msg : String)
  | text (msg : String)
  deriving DecidableEq, Repr

def errNodeNotFound : Error := .text "node with given Eth address cannot be found"

structure Node where
  ethAddr : Address
  ipAddr : List String
  ts : Time
  deriving DecidableEq, Repr

/-- `map[common.Address]*node`.  Records are never written after they are stored,
so the pointers are modelled as the records they point to. -/
abbrev DB := AList (fun _ : Address => Node)

structure LocatorConfig where
  cleanupPeriod : Duration
  nodeTTL : Duration
  deriving DecidableEq, Repr

/-- The `AuthInfo` left in a call's context by the TLS handshake: the wallet behind
the peer's certificate (`util.EthAuthInfo`), or credentials of another kind. -/
inductive AuthInfo where
  | ethAuthInfo (wallet : Address)
  | other
  deriving DecidableEq, Repr

structure Peer where
  authInfo : AuthInfo
  deriving DecidableEq, Repr

/-- A call's context, through `peer.FromContext`: the peer, if one is attached. -/
abbrev Context := Option Peer

structure AnnounceRequest where
  ipAddr : List String
  deriving DecidableEq, Repr

def extractEthAddr : Context → Except Error Address
  | none => .error (.status .dataLoss "failed to get peer from ctx")
  | some pr =>
    match pr.authInfo with
    | .ethAuthInfo wallet => .ok wallet
    | .other => .error (.status .unauthenticated "wrong AuthInfo type")

/-- `putAnnounce`: stamp the record with `time.Now()`, read under the lock, and
store it in place of whatever the address had. -/
def putAnnounce (db : DB) (n : Node) (now : Time) : DB :=
  db.insert n.ethAddr { n with ts := now }

def getResolve (db : DB) (ethAddr : Address) : Except Error Node :=
  match db.lookup ethAddr with
  | some n => .ok n
  | none => .error errNodeNotFound

theorem lookup_insert_ite (db : DB) (b : Address) (n : Node) (a : Address) :
    (db.insert b n).lookup a = if a = b then some n else db.lookup a := by
  split_ifs with h
  · subst h; exact AList.lookup_insert db
  · exact AList.lookup_insert_ne h

theorem lookup_putAnnounce (db : DB) (n : Node) (now : Time) (a : Address) :
    (putAnnounce db n now).lookup a =
      if a = n.ethAddr then some { n with ts := now } else db.lookup a :=
  lookup_insert_ite db _ _ a

theorem getResolve_eq_ok_iff {db : DB} {a : Address} {n : Node} :
    getResolve db a = .ok n ↔ db.lookup a = some n := by
  cases h : db.lookup a <;> simp [getResolve, h]

theorem getResolve_eq_error_iff {db : DB} {a : Address} {err : Error} :
    getResolve db a = .error err ↔ db.lookup a = none ∧ err = errNodeNotFound := by
  cases h : db.lookup a <;> simp [getResolve, h, eq_comm]

theorem extractEthAddr_error {ctx : Context} {err : Error}
    (h : extractEthAddr ctx = .error err) :
    (ctx = none ∧ err = .status .dataLoss "failed to get peer from ctx") ∨
      (∃ pr, ctx = some pr ∧ pr.authInfo = .other ∧
        err = .status .unauthenticated "wrong AuthInfo type") := by
  rcases ctx with _ | ⟨_ | _⟩ <;> simp_all [extractEthAddr, eq_comm]

end SonmCore.Directory
