import DpdkNet.Lib.Protocol
import DpdkNet.Device.Eal
import DpdkNet.Device.EthDev

/-! # Bringing up a port

    `EthDevBuilder::build` of `api/rte/eth.rs` and `EthDevConfig::build` of
    `eth_dev_config.rs`: create the mempool, configure the port, set up its
    queues, spread the flows over them, start it.

    DPDK prescribes an order for these calls: `portRules`.  Any of them may be
    refused.  Most refusals end the build, two are only logged; none is undone.
    So what a failed build leaves behind depends on how far it got, and that
    includes receive queues that refer to a mempool which is freed on the way
    out. -/

namespace DpdkNet

open Protocol

variable {ρ : Type}

/-! ## Configurations -/

/-- RX queue multi-queue mode -/
inductive RxMqMode where
  | none
  | rss
  | dcb
  | dcbRss
  | vmdq
  | vmdqDcb
  | vmdqRss
  | vmdqDcbRss
  deriving DecidableEq

def RxMqMode.toU32 : RxMqMode → UInt32
  | .none => 0
  | .rss => 1
  | .dcb => 2
  | .dcbRss => 3
  | .vmdq => 4
  | .vmdqDcb => 5
  | .vmdqRss => 6
  | .vmdqDcbRss => 7

/-- TX queue multi-queue mode -/
inductive TxMqMode where
  | none
  | dcb
  | vmdq
  | vmdqDcb

def TxMqMode.toU32 : TxMqMode → UInt32
  | .none => 0
  | .dcb => 1
  | .vmdq => 2
  | .vmdqDcb => 3

structure RxMode where
  mqMode : RxMqMode := .none
  mtu : UInt32 := 1500
  offloads : UInt64 := 0
  maxLroPktSize : UInt32 := 0

structure TxMode where
  mqMode : TxMqMode := .none
  offloads : UInt64 := 0

/-- Ethernet device configuration -/
structure EthConf where
  linkSpeeds : UInt32 := 0
  rxMode : RxMode := {}
  txMode : TxMode := {}
  loopbackMode : UInt32 := 0
  rssHf : UInt64 := 0
  rssKey : Option (List UInt8) := none

/-- The fields of `rte_eth_conf` that are written; a null key is `none`. -/
structure RawEthConf where
  linkSpeeds : UInt32
  rxMqMode : UInt32
  mtu : UInt32
  rxOffloads : UInt64
  maxLroPktSize : UInt32
  txMqMode : UInt32
  txOffloads : UInt64
  lpbkMode : UInt32
  rssHf : UInt64
  rssKey : Option (List UInt8)
  rssKeyLen : UInt8

/-- `key.len() as u8` -/
def keyLen (key : Option (List UInt8)) : UInt8 := UInt8.ofNat (key.getD []).length

/-- The hash function and the key are passed on in RSS mode only, and only with a
    hash function set. -/
def EthConf.toRaw (conf : EthConf) : RawEthConf :=
  let rss := conf.rxMode.mqMode = .rss ∧ conf.rssHf ≠ 0
  { linkSpeeds := conf.linkSpeeds
    rxMqMode := conf.rxMode.mqMode.toU32
    mtu := conf.rxMode.mtu
    rxOffloads := conf.rxMode.offloads
    maxLroPktSize := conf.rxMode.maxLroPktSize
    txMqMode := conf.txMode.mqMode.toU32
    txOffloads := conf.txMode.offloads
    lpbkMode := conf.loopbackMode
    rssHf := if rss then conf.rssHf else 0
    rssKey := if rss then conf.rssKey else none
    rssKeyLen := if rss then keyLen conf.rssKey else 0 }

/-- The configuration of a queue; the raw C record, if any, is passed on as it
    is. -/
structure QueueConf where
  nbDesc : UInt16 := 1024
  socketId : Int32 := -1
  conf : Option (List UInt8) := none

/-- RX queue configuration -/
def RxQueueConf : Type := QueueConf

/-- TX queue configuration -/
def TxQueueConf : Type := QueueConf

/-- Standard Microsoft RSS key (40 bytes) for Toeplitz hash -/
def rssKey40 : List UInt8 :=
  [0x6d, 0x5a, 0x56, 0xda, 0x25, 0x5b, 0x0e, 0xc2, 0x41, 0x67, 0x25, 0x3d, 0x43, 0xa3, 0x8f, 0xb0,
    0xd0, 0xca, 0x2b, 0xcb, 0xae, 0x7b, 0x30, 0xb4, 0x77, 0xcb, 0x2d, 0xa3, 0x80, 0x30, 0xf2, 0x0c,
    0x6a, 0x42, 0xb7, 0x3b, 0xbe, 0xac, 0x01, 0xfa]

/-- Configuration for creating a mempool -/
structure MemPoolConfig where
  numMbufs : UInt32 := 8191
  cacheSize : UInt32 := 256
  privSize : UInt16 := 0
  dataRoomSize : UInt16
  socketId : Int32 := -1

/-! ## The port -/

/-- The calls that change a port or its mempool. -/
inductive PortCall where
  | poolCreate (name : CString) (config : MemPoolConfig)
  | poolFree
  | configure (nbRxQueues nbTxQueues : UInt16) (conf : RawEthConf)
  | rxQueueSetup (queueId nbDesc : UInt16) (socketId : UInt32) (conf : Option (List UInt8))
  | txQueueSetup (queueId nbDesc : UInt16) (socketId : UInt32) (conf : Option (List UInt8))
  | rssRetaUpdate (conf : List RetaEntry64) (retaSize : UInt16)
  | rssHashUpdate (rssHf : UInt64) (key : Option (List UInt8)) (keyLen : UInt8)
  | promiscuousEnable
  | start

/-- The driver of a port.  What `perform` returns is the code of the call; for the
    mempool, that of a null pointer is negative. -/
structure EthPort (ρ : Type) extends EthDriver ρ where
  devSocketId : ρ → Int32
  perform : ρ → PortCall → Int × ρ
  perform_reta : ∀ s conf n, perform s (.rssRetaUpdate conf n) = rssRetaUpdate s conf n

namespace EthPort

/-- The same port with its calls written down.  Freeing a mempool has no code. -/
def recorded (P : EthPort ρ) : EthPort (ρ × Trace PortCall) where
  devInfoGet s := P.devInfoGet s.1
  rssRetaUpdate s conf n :=
    let r := P.rssRetaUpdate s.1 conf n
    (r.1, r.2, s.2 ++ [(.rssRetaUpdate conf n, decide (0 ≤ r.1))])
  rssRetaQuery s conf n := P.rssRetaQuery s.1 conf n
  rteErrno s := P.rteErrno s.1
  devSocketId s := P.devSocketId s.1
  perform s c :=
    let r := P.perform s.1 c
    (r.1, r.2, s.2 ++ [(c, match c with | .poolFree => true | _ => decide (0 ≤ r.1))])
  perform_reta s conf n := by
    rw [P.perform_reta]

/-- A call whose code is checked. -/
def invoke (P : EthPort ρ) (c : PortCall) : Prog ρ EthFault Unit := fun s =>
  let r := P.perform s c
  (checkRteSuccess P.toEthDriver r.2 r.1, r.2)

def info (P : EthPort ρ) : Prog ρ EthFault DevInfo := fun s => (EthDev.info P.toEthDriver s, s)

def configure (P : EthPort ρ) (nbRxQueues nbTxQueues : UInt16) (conf : EthConf) :
    Prog ρ EthFault Unit :=
  P.invoke (.configure nbRxQueues nbTxQueues conf.toRaw)

/-- A negative socket is that of the device, whatever that is. -/
def queueSocket (P : EthPort ρ) (conf : QueueConf) (s : ρ) : UInt32 :=
  if conf.socketId < 0 then (P.devSocketId s).toUInt32 else conf.socketId.toUInt32

def rxQueueSetup (P : EthPort ρ) (queueId : UInt16) (conf : RxQueueConf) : Prog ρ EthFault Unit :=
  fun s => P.invoke (.rxQueueSetup queueId conf.nbDesc (P.queueSocket conf s) conf.conf) s

def txQueueSetup (P : EthPort ρ) (queueId : UInt16) (conf : TxQueueConf) : Prog ρ EthFault Unit :=
  fun s => P.invoke (.txQueueSetup queueId conf.nbDesc (P.queueSocket conf s) conf.conf) s

def promiscuousEnable (P : EthPort ρ) : Prog ρ EthFault Unit := P.invoke .promiscuousEnable

def start (P : EthPort ρ) : Prog ρ EthFault Unit := P.invoke .start

/-- `EthDev.configureRssReta` once more, for callers that go on after an error. -/
def configureRssReta (P : EthPort ρ) (nbRxQueues : UInt16) : Prog ρ EthFault Unit := do
  let retaSize := (← P.info).retaSize
  if retaSize = 0 then return ()
  else if nbRxQueues = 0 then throw .panicked
  else P.invoke (.rssRetaUpdate (EthDev.retaConf retaSize nbRxQueues) retaSize)

def updateRssHash (P : EthPort ρ) (rssHf : UInt64) (key : Option (List UInt8)) :
    Prog ρ EthFault Unit :=
  P.invoke (.rssHashUpdate rssHf key (keyLen key))

end EthPort

/-- An error is logged and that is all; a panic is not caught. -/
def warnOnError (m : Prog ρ EthFault Unit) : Prog ρ EthFault Unit :=
  tryCatch m fun
    | .errno _ => pure ()
    | .panicked => throw .panicked

/-- Builder for configuring and starting an Ethernet device -/
structure EthDevBuilder where
  ethConf : EthConf := {}
  nbRxQueues : UInt16 := 1
  nbTxQueues : UInt16 := 1
  rxQueueConf : RxQueueConf := ({} : QueueConf)
  txQueueConf : TxQueueConf := ({} : QueueConf)
  promiscuous : Bool := false

namespace EthDevBuilder

/-- The redirection table and the hash function, with several queues only.  The
    key is always the standard one. -/
def configureRss (b : EthDevBuilder) (P : EthPort ρ) : Prog ρ EthFault Unit :=
  if b.nbRxQueues > 1 then do
    warnOnError (P.configureRssReta b.nbRxQueues)
    if b.ethConf.rssHf ≠ 0 then warnOnError (P.updateRssHash b.ethConf.rssHf (some rssKey40))
    else pure ()
  else pure ()

/-- Enable promiscuous mode if requested. -/
def enablePromiscuous (b : EthDevBuilder) (P : EthPort ρ) : Prog ρ EthFault Unit :=
  if b.promiscuous then P.promiscuousEnable else pure ()

/-- Build and start the device. -/
def build (b : EthDevBuilder) (P : EthPort ρ) : Prog ρ EthFault Unit := do
  P.configure b.nbRxQueues b.nbTxQueues b.ethConf
  (List.range b.nbRxQueues.toNat).forM fun q => P.rxQueueSetup (UInt16.ofNat q) b.rxQueueConf
  (List.range b.nbTxQueues.toNat).forM fun q => P.txQueueSetup (UInt16.ofNat q) b.txQueueConf
  b.configureRss P
  b.enablePromiscuous P
  P.start

end EthDevBuilder

/-- `EINVAL` -/
def einval : Int := 22

/-- The part of `EthDevConfig` that `build` reads. -/
structure EthDevConfig where
  mempoolName : List UInt8
  numMbufs : UInt32 := 8191
  dataRoomSize : UInt16 := 2048 + 128
  nbRxQueues : UInt16 := 1
  nbTxQueues : UInt16 := 1
  rxDesc : UInt16 := 1024
  txDesc : UInt16 := 1024
  ethConf : Option EthConf := none

/-- `MemPool::create` -/
def EthPort.createPool (P : EthPort ρ) (name : List UInt8) (config : MemPoolConfig) :
    Prog ρ EthFault Unit :=
  match CString.new name with
  | some name => P.invoke (.poolCreate name config)
  | none => throw (.errno einval)

/-- The drop of the mempool. -/
def EthPort.dropPool (P : EthPort ρ) : Prog ρ EthFault Unit :=
  fun s => (.ok (), (P.perform s .poolFree).2)

namespace EthDevConfig

def builder (c : EthDevConfig) : EthDevBuilder where
  ethConf := c.ethConf.getD {}
  nbRxQueues := c.nbRxQueues
  nbTxQueues := c.nbTxQueues
  rxQueueConf := ({ nbDesc := c.rxDesc } : QueueConf)
  txQueueConf := ({ nbDesc := c.txDesc } : QueueConf)

/-- Build the memory pool and ethernet device.  When the device cannot be built
    the mempool goes out of scope. -/
def build (c : EthDevConfig) (P : EthPort ρ) : Prog ρ EthFault Unit := do
  P.createPool c.mempoolName { numMbufs := c.numMbufs, dataRoomSize := c.dataRoomSize }
  tryCatch (c.builder.build P) fun e => do
    P.dropPool
    throw e

end EthDevConfig

/-- The two ways to fill the redirection table agree. -/
theorem EthPort.configureRssReta_eq (P : EthPort ρ) (nbRxQueues : UInt16) (s : ρ) :
    (P.configureRssReta nbRxQueues s).1
        = (EthDev.configureRssReta P.toEthDriver nbRxQueues s).map (fun _ => ()) ∧
      ∀ s', EthDev.configureRssReta P.toEthDriver nbRxQueues s = .ok s' →
        (P.configureRssReta nbRxQueues s).2 = s' := by
  rw [configureRssReta, bind_apply, EthDev.configureRssReta, info]
  cases EthDev.info P.toEthDriver s with
  | error e => exact ⟨rfl, fun s' h => by cases h⟩
  | ok dev =>
      rw [show ∀ f : DevInfo → Except EthFault ρ, (Except.ok dev >>= f) = f dev from fun _ => rfl]
      by_cases hsize : dev.retaSize = 0
      · simp only [if_pos hsize]
        exact ⟨rfl, fun s' h => Except.ok.inj h⟩
      · by_cases hnone : nbRxQueues = 0
        · simp only [if_neg hsize, if_pos hnone]
          exact ⟨rfl, fun s' h => by cases h⟩
        · simp only [if_neg hsize, if_neg hnone, invoke, P.perform_reta]
          cases checkRteSuccess P.toEthDriver
              (P.rssRetaUpdate s (EthDev.retaConf dev.retaSize nbRxQueues) dev.retaSize).2
              (P.rssRetaUpdate s (EthDev.retaConf dev.retaSize nbRxQueues) dev.retaSize).1 with
          | error e => exact ⟨rfl, fun s' h => by cases h⟩
          | ok _ => exact ⟨rfl, fun s' h => Except.ok.inj h⟩

/-! ## The order of the calls -/

/-- A port as its calls leave it: is there a mempool, for how many queues of
    either kind is it configured, which of them are set up, is it started, and has
    a call been refused that the build needs. -/
structure PortState where
  pool : Bool
  configured : Option (Nat × Nat)
  rx : List Nat
  tx : List Nat
  started : Bool
  refused : Bool

namespace PortState

/-- No mempool, and nothing done to the port. -/
def closed : PortState := ⟨false, none, [], [], false, false⟩

/-- The same with a mempool. -/
def pooled : PortState := ⟨true, none, [], [], false, false⟩

/-- Configured, with some of the queues set up. -/
def settingUp (n m : Nat) (rx tx : List Nat) : PortState := ⟨true, some (n, m), rx, tx, false, false⟩

/-- Up and running with all its queues. -/
def running (n m : Nat) : PortState :=
  ⟨true, some (n, m), List.range n, List.range m, true, false⟩

/-- There are receive queues for a mempool that is gone. -/
def Dangling (p : PortState) : Prop := p.pool = false ∧ p.rx ≠ []

end PortState

/-- A call that the build does without. -/
def PortCall.optional : PortCall → Bool
  | .rssRetaUpdate _ _ => true
  | .rssHashUpdate _ _ _ => true
  | _ => false

/-- What a call that goes through changes. -/
def PortState.accept (p : PortState) : PortCall → PortState
  | .poolCreate _ _ => { p with pool := true }
  | .poolFree => { p with pool := false }
  | .configure n m _ => { p with configured := some (n.toNat, m.toNat) }
  | .rxQueueSetup q _ _ _ => { p with rx := p.rx ++ [q.toNat] }
  | .txQueueSetup q _ _ _ => { p with tx := p.tx ++ [q.toNat] }
  | .rssRetaUpdate _ _ => p
  | .rssHashUpdate _ _ _ => p
  | .promiscuousEnable => p
  | .start => { p with started := true }

/-- The queues that the port is configured for, while it is not started and no
    call that is needed has been refused. -/
def PortState.Open (p : PortState) (n m : Nat) : Prop :=
  p.pool = true ∧ p.configured = some (n, m) ∧ p.started = false ∧ p.refused = false

/-- **THE RULES**: first the mempool, then the configuration, then every queue
    once, and last the start.  The redirection table names configured queues only.
    Once a call that is needed has been refused, all that is left is to free the
    mempool. -/
def portRules : Rules PortCall PortState where
  permits p
    | .poolCreate _ _ => p = .closed
    | .poolFree => p.pool = true
    | .configure _ _ _ => p = .pooled
    | .rxQueueSetup q _ _ _ => ∃ n m, p.Open n m ∧ q.toNat < n ∧ q.toNat ∉ p.rx
    | .txQueueSetup q _ _ _ => ∃ n m, p.Open n m ∧ q.toNat < m ∧ q.toNat ∉ p.tx
    | .rssRetaUpdate conf size =>
        ∃ n m, p.Open n m ∧ ∀ e ∈ EthDev.retaTable size conf, e.toNat < n
    | .rssHashUpdate _ _ _ => ∃ n m, p.Open n m
    | .promiscuousEnable => ∃ n m, p.Open n m
    | .start => ∃ n m, p.Open n m ∧ (∀ q < n, q ∈ p.rx) ∧ ∀ q < m, q ∈ p.tx
  next p c ok :=
    if ok then p.accept c else if c.optional then p else { p with refused := true }

/-! ### What a trace says about the state -/

/-- The receive queue that a call has set up. -/
def rxAccepted : PortCall × Bool → Option Nat
  | (.rxQueueSetup q _ _ _, true) => some q.toNat
  | _ => none

theorem rx_leads {p p' : PortState} {t : Trace PortCall} (h : portRules.Leads p t p') :
    p'.rx = p.rx ++ t.filterMap rxAccepted := by
  induction h with
  | nil p => exact (List.append_nil _).symm
  | @cons p p' c ok t _ _ ih =>
      have hnext : (portRules.next p c ok).rx = p.rx ++ (rxAccepted (c, ok)).toList := by
        show (if ok then p.accept c else if c.optional then p else { p with refused := true }).rx = _
        cases ok with
        | true => cases c <;> first | rfl | exact (List.append_nil _).symm
        | false => cases c <;> exact (List.append_nil _).symm
      rw [ih, hnext, List.append_assoc]
      congr 1
      cases hc : rxAccepted (c, ok) with
      | none => rw [List.filterMap_cons_none hc]; rfl
      | some q => rw [List.filterMap_cons_some hc]; rfl

/-! ### The pieces of a build -/

/-- A call that is needed has been refused, before the port was started. -/
def PortState.Failed (p : PortState) : Prop :=
  p.pool = true ∧ p.started = false ∧ p.refused = true

section Triples

variable (P : EthPort ρ)

/-- A permitted call, checked: it may depend on what the port says. -/
theorem invoke_triple {p : PortState} (c : ρ × Trace PortCall → PortCall)
    (hfree : ∀ w, c w ≠ .poolFree) (hpermits : ∀ w, portRules.permits p (c w)) :
    Triple portRules (· = p) (fun w => P.recorded.invoke (c w) w : Prog _ EthFault Unit)
      (fun _ q => ∃ w, q = p.accept (c w))
      (fun e q => (∃ code, e = .errno code) ∧ ∃ w, q = portRules.next p (c w) false) := by
  rintro w _ rfl
  have hlog : (P.recorded.perform w (c w)).2.2
      = w.2 ++ [(c w, decide (0 ≤ (P.perform w.1 (c w)).1))] := by
    cases hc : c w with
    | poolFree => exact absurd hc (hfree w)
    | _ => rfl
  refine ⟨_, _, hlog, .cons (hpermits w) (.nil _), ?_⟩
  show Ends _ _ (checkRteSuccess P.recorded.toEthDriver _ (P.perform w.1 (c w)).1) _
  by_cases hret : (P.perform w.1 (c w)).1 < 0
  · rw [checkRteSuccess, if_pos hret, decide_eq_false (by omega)]
    exact ⟨⟨_, rfl⟩, w, rfl⟩
  · rw [checkRteSuccess, if_neg hret, decide_eq_true (by omega)]
    exact ⟨w, rfl⟩

/-- One that is needed. -/
theorem needed_triple {p p' : PortState} (c : ρ × Trace PortCall → PortCall)
    (hfree : ∀ w, c w ≠ .poolFree) (hneeded : ∀ w, (c w).optional = false)
    (hpermits : ∀ w, portRules.permits p (c w)) (haccept : ∀ w, p.accept (c w) = p')
    (hpool : p.pool = true) (hstarted : p.started = false) :
    Triple portRules (· = p) (fun w => P.recorded.invoke (c w) w : Prog _ EthFault Unit)
      (fun _ q => q = p') (fun _ q => q.Failed) := by
  refine (invoke_triple P c hfree hpermits).mono (fun _ h => h) ?_ ?_
  · rintro _ _ ⟨w, rfl⟩
    exact haccept w
  · rintro _ _ ⟨-, w, rfl⟩
    show (if (c w).optional then p else { p with refused := true }).Failed
    rw [hneeded w]
    exact ⟨hpool, hstarted, rfl⟩

variable {n m : Nat}

theorem open_settingUp (rx tx : List Nat) : (PortState.settingUp n m rx tx).Open n m :=
  ⟨rfl, rfl, rfl, rfl⟩

/-- What is set up so far and what comes next, in a loop over the queues. -/
theorem next_queue {k : Nat} (hk : k < 2 ^ 16 + 1) {ys zs : List Nat} {q : Nat}
    (h : [] ++ List.range k = ys ++ q :: zs) :
    (UInt16.ofNat q).toNat = q ∧ q < k ∧ q ∉ ys := by
  rw [List.nil_append] at h
  have hmem : q ∈ List.range k := by
    rw [h]
    exact List.mem_append_right _ List.mem_cons_self
  have hlt := List.mem_range.mp hmem
  refine ⟨?_, hlt, ?_⟩
  · rw [UInt16.toNat_ofNat']
    exact Nat.mod_eq_of_lt (by omega)
  · intro hq
    have hnodup := List.nodup_range (n := k)
    rw [h] at hnodup
    exact (List.disjoint_of_nodup_append hnodup) hq List.mem_cons_self

theorem rxQueues_triple (conf : RxQueueConf) (hn : n < 2 ^ 16 + 1) :
    Triple portRules (· = .settingUp n m [] [])
      ((List.range n).forM fun q => P.recorded.rxQueueSetup (UInt16.ofNat q) conf)
      (fun _ q => q = .settingUp n m (List.range n) []) (fun _ q => q.Failed) := by
  refine Triple.forM (fun rx q => q = PortState.settingUp n m rx []) (List.range n) [] ?_
  intro ys q zs h
  obtain ⟨hq, hlt, hnew⟩ := next_queue hn h
  refine needed_triple P _ (fun _ => nofun) (fun _ => rfl) (fun _ => ?_) (fun _ => ?_) rfl rfl
  · exact ⟨n, m, open_settingUp ys [], by rw [hq]; exact hlt, by rw [hq]; exact hnew⟩
  · show PortState.settingUp n m (ys ++ [(UInt16.ofNat q).toNat]) [] = _
    rw [hq]

theorem txQueues_triple (conf : TxQueueConf) (rx : List Nat) (hm : m < 2 ^ 16 + 1) :
    Triple portRules (· = .settingUp n m rx [])
      ((List.range m).forM fun q => P.recorded.txQueueSetup (UInt16.ofNat q) conf)
      (fun _ q => q = .settingUp n m rx (List.range m)) (fun _ q => q.Failed) := by
  refine Triple.forM (fun tx q => q = PortState.settingUp n m rx tx) (List.range m) [] ?_
  intro ys q zs h
  obtain ⟨hq, hlt, hnew⟩ := next_queue hm h
  refine needed_triple P _ (fun _ => nofun) (fun _ => rfl) (fun _ => ?_) (fun _ => ?_) rfl rfl
  · exact ⟨n, m, open_settingUp rx ys, by rw [hq]; exact hlt, by rw [hq]; exact hnew⟩
  · show PortState.settingUp n m rx (ys ++ [(UInt16.ofNat q).toNat]) = _
    rw [hq]

/-- An error that is only logged leaves the state as it is. -/
theorem warnOnError_triple {p : PortState} {prog : Prog (ρ × Trace PortCall) EthFault Unit}
    (h : Triple portRules (· = p) prog (fun _ q => q = p)
      (fun e q => (∃ code, e = .errno code) ∧ q = p)) :
    Triple portRules (· = p) (warnOnError prog) (fun _ q => q = p) (fun _ q => q.Failed) := by
  refine h.handle fun e => ?_
  cases e with
  | errno code => exact Triple.quiet (r := fun _ => .ok ()) fun _ _ hq => hq.2
  | panicked =>
      intro w q hq
      obtain ⟨⟨code, hcode⟩, -⟩ := hq
      cases hcode

theorem optional_triple {p : PortState} {c : PortCall} (hfree : c ≠ .poolFree)
    (hopt : c.optional = true) (haccept : p.accept c = p) (hpermits : portRules.permits p c) :
    Triple portRules (· = p) (P.recorded.invoke c) (fun _ q => q = p)
      (fun e q => (∃ code, e = .errno code) ∧ q = p) := by
  refine (invoke_triple P (fun _ => c) (fun _ => hfree) (fun _ => hpermits)).mono (fun _ h => h) ?_ ?_
  · rintro _ _ ⟨w, rfl⟩
    exact haccept
  · rintro e _ ⟨he, w, rfl⟩
    refine ⟨he, ?_⟩
    show (if c.optional then p else { p with refused := true }) = p
    rw [if_pos hopt]

/-- The table names configured queues only. -/
theorem configureRssReta_triple {nbRxQueues : UInt16} (hnb : 0 < nbRxQueues) (rx tx : List Nat) :
    Triple portRules (· = .settingUp nbRxQueues.toNat m rx tx)
      (P.recorded.configureRssReta nbRxQueues)
      (fun _ q => q = .settingUp nbRxQueues.toNat m rx tx)
      (fun e q => (∃ code, e = .errno code) ∧ q = .settingUp nbRxQueues.toNat m rx tx) := by
  have hinfo : Triple portRules (· = .settingUp nbRxQueues.toNat m rx tx) P.recorded.info
      (fun _ q => q = .settingUp nbRxQueues.toNat m rx tx)
      (fun e q => (∃ code, e = .errno code) ∧ q = .settingUp nbRxQueues.toNat m rx tx) := by
    refine Triple.quiet fun w q hq => ?_
    show Ends _ _ ((checkRteSuccess P.recorded.toEthDriver w (P.devInfoGet w.1).1).bind
      fun _ => .ok (P.devInfoGet w.1).2) q
    rw [checkRteSuccess]
    split
    · exact ⟨⟨_, rfl⟩, hq⟩
    · exact hq
  refine hinfo.bind fun dev => ?_
  show Triple portRules _ (if dev.retaSize = 0 then pure ()
    else if nbRxQueues = 0 then throw .panicked
    else P.recorded.invoke (.rssRetaUpdate (EthDev.retaConf dev.retaSize nbRxQueues) dev.retaSize)) _ _
  by_cases hsize : dev.retaSize = 0
  · rw [if_pos hsize]
    exact Triple.quiet (r := fun _ => .ok ()) fun _ _ hq => hq
  · have hne : nbRxQueues ≠ 0 := by
      rintro rfl
      exact absurd hnb (by decide)
    rw [if_neg hsize, if_neg hne]
    refine optional_triple P (fun h => by cases h) rfl rfl ⟨_, m, open_settingUp rx tx, ?_⟩
    intro e he
    rw [retaTable_eq (length_retaConf dev.retaSize nbRxQueues) (turn nbRxQueues)
      (fun _ i _ h hi => (retaConf_get h).2 i hi)] at he
    obtain ⟨i, -, rfl⟩ := List.mem_map.mp he
    obtain ⟨hturn, hlt⟩ := toNat_turn hnb i
    rw [hturn]
    exact hlt

theorem configureRss_triple (b : EthDevBuilder) (rx tx : List Nat) :
    Triple portRules (· = .settingUp b.nbRxQueues.toNat m rx tx) (b.configureRss P.recorded)
      (fun _ q => q = .settingUp b.nbRxQueues.toNat m rx tx) (fun _ q => q.Failed) := by
  have hnone : Triple portRules (· = PortState.settingUp b.nbRxQueues.toNat m rx tx)
      (pure () : Prog (ρ × Trace PortCall) EthFault Unit)
      (fun _ q => q = .settingUp b.nbRxQueues.toNat m rx tx) (fun _ q => q.Failed) :=
    Triple.quiet (r := fun _ => .ok ()) fun _ _ hq => hq
  rw [EthDevBuilder.configureRss]
  by_cases hmany : b.nbRxQueues > 1
  · rw [if_pos hmany]
    have hpos : 0 < b.nbRxQueues := by
      rw [gt_iff_lt, UInt16.lt_iff_toNat_lt] at hmany
      rw [UInt16.lt_iff_toNat_lt]
      exact Nat.lt_of_le_of_lt (Nat.zero_le _) hmany
    refine (warnOnError_triple (configureRssReta_triple P hpos rx tx)).bind fun _ => ?_
    by_cases hhf : b.ethConf.rssHf ≠ 0
    · rw [if_pos hhf]
      exact warnOnError_triple
        (optional_triple P nofun rfl rfl ⟨_, m, open_settingUp rx tx⟩)
    · rw [if_neg hhf]
      exact hnone
  · rw [if_neg hmany]
    exact hnone

/-- **THE BUILD**, from a port with a mempool to one that is running. -/
theorem build_triple (b : EthDevBuilder) :
    Triple portRules (· = .pooled) (b.build P.recorded)
      (fun _ q => q = .running b.nbRxQueues.toNat b.nbTxQueues.toNat) (fun _ q => q.Failed) := by
  have hn := b.nbRxQueues.toNat_lt
  have hm := b.nbTxQueues.toNat_lt
  have hconfigure : Triple portRules (· = .pooled)
      (P.recorded.configure b.nbRxQueues b.nbTxQueues b.ethConf)
      (fun _ q => q = .settingUp b.nbRxQueues.toNat b.nbTxQueues.toNat [] [])
      (fun _ q => q.Failed) :=
    needed_triple P (fun _ => _) (fun _ => nofun) (fun _ => rfl) (fun _ => rfl) (fun _ => rfl) rfl rfl
  refine hconfigure.bind fun _ => ?_
  refine (rxQueues_triple P b.rxQueueConf (by omega)).bind fun _ => ?_
  refine (txQueues_triple P b.txQueueConf _ (by omega)).bind fun _ => ?_
  refine (configureRss_triple P b _ _).bind fun _ => ?_
  have hopen := open_settingUp (n := b.nbRxQueues.toNat) (m := b.nbTxQueues.toNat)
    (List.range b.nbRxQueues.toNat) (List.range b.nbTxQueues.toNat)
  have hpromiscuous : Triple portRules
      (· = PortState.settingUp b.nbRxQueues.toNat b.nbTxQueues.toNat
        (List.range b.nbRxQueues.toNat) (List.range b.nbTxQueues.toNat))
      (b.enablePromiscuous P.recorded)
      (fun _ q => q = .settingUp b.nbRxQueues.toNat b.nbTxQueues.toNat
        (List.range b.nbRxQueues.toNat) (List.range b.nbTxQueues.toNat)) (fun _ q => q.Failed) := by
    rw [EthDevBuilder.enablePromiscuous]
    by_cases hprom : b.promiscuous = true
    · rw [if_pos hprom]
      exact needed_triple P (fun _ => _) (fun _ => nofun) (fun _ => rfl) (fun _ => ⟨_, _, hopen⟩)
        (fun _ => rfl) rfl rfl
    · rw [if_neg hprom]
      exact Triple.quiet (r := fun _ => .ok ()) fun _ _ hq => hq
  refine hpromiscuous.bind fun _ => ?_
  refine needed_triple P (fun _ => _) (fun _ => nofun) (fun _ => rfl) (fun _ => ?_) (fun _ => rfl)
    rfl rfl
  exact ⟨_, _, hopen, fun q hq => List.mem_range.mpr hq, fun q hq => List.mem_range.mpr hq⟩

/-- There is no mempool, any more or yet, and the port does not run. -/
def PortState.Abandoned (p : PortState) : Prop := p.pool = false ∧ p.started = false

/-- The mempool is freed where the build has failed. -/
theorem dropPool_triple : Triple portRules PortState.Failed P.recorded.dropPool
    (fun _ q => q.Abandoned) (fun _ q => q.Abandoned) := by
  intro w p hp
  exact ⟨_, _, rfl, .cons hp.1 (.nil _), rfl, hp.2.1⟩

theorem createPool_triple (name : List UInt8) (config : MemPoolConfig) :
    Triple portRules (· = .closed) (P.recorded.createPool name config)
      (fun _ q => q = .pooled) (fun _ q => q.Abandoned) := by
  rw [EthPort.createPool]
  cases CString.new name with
  | none =>
      refine Triple.quiet (r := fun _ => .error (EthFault.errno einval)) ?_
      rintro _ _ rfl
      exact ⟨rfl, rfl⟩
  | some name =>
      refine (invoke_triple P (fun _ => .poolCreate name config) (fun _ => nofun)
        (fun _ => rfl)).mono (fun _ h => h) ?_ ?_
      · rintro _ _ ⟨w, rfl⟩
        rfl
      · rintro _ _ ⟨-, w, rfl⟩
        exact ⟨rfl, rfl⟩

theorem configBuild_triple (c : EthDevConfig) :
    Triple portRules (· = .closed) (c.build P.recorded)
      (fun _ q => q = .running c.nbRxQueues.toNat c.nbTxQueues.toNat)
      (fun _ q => q.Abandoned) := by
  refine (createPool_triple P _ _).bind fun _ => ?_
  refine (build_triple P c.builder).handle fun e => ?_
  refine (dropPool_triple P).bind fun _ => ?_
  exact Triple.quiet (r := fun _ => .error e) fun _ _ hq => hq

end Triples

/-- **WHAT A FAILED BUILD LEAVES**: the mempool is gone and the port does not run,
    but receive queues that were set up with the mempool before the failure are
    still there. -/
theorem queues_dangle_iff (P : EthPort ρ) (c : EthDevConfig) (s : ρ) :
    ∃ p, portRules.Leads .closed (c.build P.recorded (s, [])).2.2 p ∧
      ((c.build P.recorded (s, [])).1.isOk = true →
        p = .running c.nbRxQueues.toNat c.nbTxQueues.toNat) ∧
      ((c.build P.recorded (s, [])).1.isOk = false → p.Abandoned) ∧
      (p.Dangling ↔ (c.build P.recorded (s, [])).1.isOk = false ∧
        ∃ q nbDesc socketId conf,
          (.rxQueueSetup q nbDesc socketId conf, true) ∈ (c.build P.recorded (s, [])).2.2) := by
  obtain ⟨t, p, htrace, hleads, hend⟩ := configBuild_triple P c (s, []) _ rfl
  rw [List.nil_append] at htrace
  rw [htrace]
  have hrx : p.rx = t.filterMap rxAccepted := rx_leads hleads
  have hset : p.rx ≠ [] ↔ ∃ q nbDesc socketId conf,
      ((.rxQueueSetup q nbDesc socketId conf, true) : PortCall × Bool) ∈ t := by
    rw [hrx, ne_eq, List.filterMap_eq_nil_iff]
    constructor
    · intro h
      by_contra hno
      refine h fun x hx => ?_
      obtain ⟨d, ok⟩ := x
      cases d with
      | rxQueueSetup q nbDesc socketId conf =>
          cases ok with
          | true => exact absurd ⟨q, nbDesc, socketId, conf, hx⟩ hno
          | false => rfl
      | _ => rfl
    · rintro ⟨q, nbDesc, socketId, conf, hx⟩ h
      cases h _ hx
  refine ⟨p, hleads, ?_⟩
  cases hr : (c.build P.recorded (s, [])).1 with
  | ok _ =>
      rw [hr] at hend
      have hp : p = .running c.nbRxQueues.toNat c.nbTxQueues.toNat := hend
      refine ⟨fun _ => hp, nofun, ?_, fun h => by cases h.1⟩
      rintro ⟨hpool, -⟩
      rw [hp] at hpool
      cases hpool
  | error e =>
      rw [hr] at hend
      have habandoned : p.Abandoned := hend
      exact ⟨nofun, fun _ => habandoned, fun h => ⟨rfl, hset.mp h.2⟩,
        fun h => ⟨habandoned.1, hset.mpr h.2⟩⟩

/-- A port that refuses every transmit queue. -/
def noTxPort : EthPort Unit where
  devInfoGet _ := (0, ⟨0, 1, 1⟩)
  rssRetaUpdate s _ _ := (0, s)
  rssRetaQuery _ conf _ := (0, conf)
  rteErrno _ := einval
  devSocketId _ := 0
  perform s c := (match c with | .txQueueSetup _ _ _ _ => -1 | _ => 0, s)
  perform_reta _ _ _ := rfl

/-- Its receive queue has outlived the mempool. -/
example : let r := ({ mempoolName := [112] } : EthDevConfig).build noTxPort.recorded ((), [])
    r.1.isOk = false ∧ r.2.2.filterMap rxAccepted = [0] := ⟨rfl, rfl⟩

end DpdkNet
