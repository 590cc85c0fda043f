/-
# Assigning receive queues to DPDK workers

At the start of the DPDK module each input port gets two readers, and each reader its
share of the worker threads.  A worker has a ring, and the reader moves the packets of
one receive queue of its port into it.  `packet_capture_start` divides the threads among
the ports, `_port_init` divides those of a port between its readers and sets the queues
up, and `_reader_thread` computes once more which queues it has to poll.

The numbers are 8 or 16 bits wide, and the reductions are written out.  What DPDK answers
when a port is configured is a parameter; it refuses a port that was started before.
-/

import MmtProbe.Configure.Load
import MmtProbe.Math.Buffer
import Mathlib.Data.List.Nodup

namespace MmtProbe.Capture

open MmtProbe.Math
open MmtProbe.Configure (strtol)

/-- `NB_READERS_PER_PORT` -/
def nbReadersPerPort : Nat := 2

/-- What the module reads of the configuration. -/
structure DpdkConf where
  /-- `input->input_source` -/
  inputSource : CString
  /-- `thread->thread_count` -/
  threadCount : UInt16
  /-- `thread->thread_queue_packet_threshold` -/
  threadQueue : UInt32
deriving DecidableEq

/-- What DPDK brings along. -/
structure DpdkEnv where
  /-- `RTE_MAX_ETHPORTS`, so small that no sum with the number of ports wraps. -/
  maxEthports : Nat
  /-- `rte_lcore_count` -/
  lcoreCount : Nat
  /-- A stopped port can be configured with so many receive queues, and the memory for them
  can be set up. -/
  configures : UInt8 → Nat → Bool

/-- Why the module does not start: the program crashes, or `rte_exit_failure` is called. -/
inductive StartFailure where
  | divisionByZero
  | workersNotDivided
  | noThread
  | notEnoughCores
  | queueNotPowerOfTwo
  | cannotConfigure (port : UInt8)
deriving DecidableEq, Repr

/-! ## Ports, readers and rings -/

/-- The ring of a worker, by the numbers in its name. -/
structure WorkerRing where
  port : UInt8
  reader : Nat
  worker : Nat
deriving DecidableEq, Repr

/-- `struct reader_param` -/
structure ReaderParam where
  workerRings : Nat → WorkerRing
  nbWorkers : Nat
  inputPort : UInt8
  readerId : Nat

/-- What `_port_init` leaves: the receive queues that were set up, and the readers. -/
structure PortSetup where
  port : UInt8
  queues : List Nat
  readers : List ReaderParam

/-- The number of workers of a reader, 8 bits wide. -/
def nbWorkersPerReader (nbWorkers : Nat) : Nat := nbWorkers / nbReadersPerPort % 2 ^ 8

/-- The reader `reader_id` of a port. -/
def readerParam (port : UInt8) (nbWorkers reader : Nat) : ReaderParam where
  workerRings worker := ⟨port, reader, worker⟩
  nbWorkers := nbWorkersPerReader nbWorkers
  inputPort := port
  readerId := reader

/-- The loops of `_port_init`. -/
def portSetup (nbWorkers : Nat) (port : UInt8) : PortSetup where
  port := port
  queues := (List.range nbReadersPerPort).flatMap fun reader =>
    (List.range (nbWorkersPerReader nbWorkers)).map fun i =>
      (nbWorkersPerReader nbWorkers * reader + i) % 2 ^ 16
  readers := (List.range nbReadersPerPort).map (readerParam port nbWorkers)

/-- `is_power_of_two` -/
def isPowerOfTwo (x : UInt32) : Bool := x != 0 && x &&& (x - 1) == 0

/-- `_port_init`, when some ports were started before. -/
def portInit (env : DpdkEnv) (conf : DpdkConf) (nbWorkers : Nat) (started : List UInt8)
    (port : UInt8) : Except StartFailure PortSetup :=
  if isPowerOfTwo conf.threadQueue = false then .error .queueNotPowerOfTwo
  else if port ∈ started ∨ env.configures port nbWorkers = false then
    .error (.cannotConfigure port)
  else .ok (portSetup nbWorkers port)

/-- The queue that `_reader_thread` polls for each of its workers, and the ring into which it
puts the packets. -/
def ReaderParam.polls (param : ReaderParam) : List ((UInt8 × Nat) × WorkerRing) :=
  let inputQueueBegin := param.readerId * param.nbWorkers % 2 ^ 8
  (List.range param.nbWorkers).map fun worker =>
    ((param.inputPort, (inputQueueBegin + worker) % 2 ^ 16), param.workerRings worker)

/-! ## The start -/

/-- The module when its threads are launched. -/
structure DpdkStarted where
  ports : List PortSetup
  /-- The assignments to `context->smp`, with their indices. -/
  smp : List (WorkerRing × Nat)

/-- All that the readers poll. -/
def DpdkStarted.polls (started : DpdkStarted) : List ((UInt8 × Nat) × WorkerRing) :=
  started.ports.flatMap fun setup => setup.readers.flatMap ReaderParam.polls

/-- `string_split`: the tokens of `strtok_r`, which are never empty. -/
def stringSplit (text : List UInt8) (separator : UInt8) (argvLength : Nat) : List (List UInt8) :=
  ((text.splitOn separator).filter fun token => !token.isEmpty).take argvLength

/-- The ports of the input source, as numbers of 8 bits. -/
def inputPorts (env : DpdkEnv) (conf : DpdkConf) : List UInt8 :=
  (stringSplit conf.inputSource.bytes 44 env.maxEthports).map fun name => UInt8.ofInt (strtol name)

/-- The loop over the ports. -/
def initPorts (env : DpdkEnv) (conf : DpdkConf) (nbWorkers : Nat) :
    List UInt8 → List UInt8 → Except StartFailure (List PortSetup)
  | _, [] => .ok []
  | started, port :: ports => do
      let setup ← portInit env conf nbWorkers started port
      let setups ← initPorts env conf nbWorkers (port :: started) ports
      return setup :: setups

/-- The rings in the order in which their workers are made. -/
def workerRingsOf (setups : List PortSetup) : List WorkerRing :=
  setups.flatMap fun setup => setup.readers.flatMap fun param =>
    (List.range param.nbWorkers).map param.workerRings

/-- The number of workers of a port, 8 bits wide. -/
def nbWorkersPerPort (total nbPorts : Nat) : Nat := total / nbPorts % 2 ^ 8

/-- `packet_capture_start` of the DPDK module, up to the launch of the threads. -/
def dpdkCaptureStart (env : DpdkEnv) (conf : DpdkConf) : Except StartFailure DpdkStarted :=
  let total := conf.threadCount.toNat
  let ports := inputPorts env conf
  let nbPorts := ports.length
  if nbPorts * nbReadersPerPort = 0 then .error .divisionByZero
  else if total % (nbPorts * nbReadersPerPort) ≠ 0 then .error .workersNotDivided
  else if total = 0 then .error .noThread
  else if env.lcoreCount < 1 + nbPorts * nbReadersPerPort + total then .error .notEnoughCores
  else do
    let setups ← initPorts env conf (nbWorkersPerPort total nbPorts) [] ports
    return ⟨setups, (workerRingsOf setups).zipIdx⟩

/-! ## The assignment -/

/-- The queues and the workers are assigned to each other, one by one. -/
structure Partitioned (total nbPorts : Nat) (started : DpdkStarted) : Prop where
  /-- Every `smp[i]` is initialised once, and nothing behind them. -/
  initialised : ∀ i, (started.smp.map Prod.snd).count i = if i < total then 1 else 0
  /-- The queues of a port are set up once each, and no other ones. -/
  queues : ∀ setup ∈ started.ports, ∀ queue,
    setup.queues.count queue = if queue < total / nbPorts then 1 else 0
  /-- Each of these queues is polled by one reader, for one worker. -/
  polled : ∀ setup ∈ started.ports, ∀ queue < total / nbPorts,
    (started.polls.map Prod.fst).count (setup.port, queue) = 1
  /-- What is polled goes to the ring of one worker. -/
  fed : ∀ poll ∈ started.polls, (started.smp.map Prod.fst).count poll.2 = 1

/-- The start divides nothing by zero, and the module that comes out of it has its queues
and workers assigned to each other. -/
structure StartsPartitioned (env : DpdkEnv) (conf : DpdkConf) : Prop where
  divides : dpdkCaptureStart env conf ≠ .error .divisionByZero
  partitioned : ∀ started, dpdkCaptureStart env conf = .ok started →
    Partitioned conf.threadCount.toNat (inputPorts env conf).length started

/-- The checks of the start, those of DPDK included. -/
structure PassesChecks (env : DpdkEnv) (conf : DpdkConf) : Prop where
  divided : conf.threadCount.toNat % ((inputPorts env conf).length * nbReadersPerPort) = 0
  threads : conf.threadCount.toNat ≠ 0
  cores : 1 + (inputPorts env conf).length * nbReadersPerPort + conf.threadCount.toNat ≤
    env.lcoreCount
  powerOfTwo : isPowerOfTwo conf.threadQueue = true
  distinct : (inputPorts env conf).Nodup
  configures : ∀ port ∈ inputPorts env conf,
    env.configures port (nbWorkersPerPort conf.threadCount.toNat (inputPorts env conf).length) =
      true

/-! ## Passing the checks -/

variable {env : DpdkEnv} {conf : DpdkConf} {nbWorkers : Nat}

theorem portInit_eq_ok_iff {started : List UInt8} {port : UInt8} {setup : PortSetup} :
    portInit env conf nbWorkers started port = .ok setup ↔
      isPowerOfTwo conf.threadQueue = true ∧ port ∉ started ∧
        env.configures port nbWorkers = true ∧ portSetup nbWorkers port = setup := by
  rw [portInit]
  split_ifs with hpower hrefused
  · simp [hpower]
  · refine iff_of_false nofun fun passes => ?_
    rcases hrefused with hstarted | hrefuses
    · exact passes.2.1 hstarted
    · rw [hrefuses] at passes
      exact Bool.noConfusion passes.2.2.1
  · rw [not_or, Bool.not_eq_false] at hrefused
    rw [Bool.not_eq_false] at hpower
    simp [hpower, hrefused]

/-- The loop over the ports ends when each of them is configured, which happens to a port only
once. -/
theorem initPorts_eq_ok_iff {started ports : List UInt8} {setups : List PortSetup} :
    initPorts env conf nbWorkers started ports = .ok setups ↔
      (ports ≠ [] → isPowerOfTwo conf.threadQueue = true) ∧ ports.Nodup ∧
        (∀ port ∈ ports, port ∉ started ∧ env.configures port nbWorkers = true) ∧
        ports.map (portSetup nbWorkers) = setups := by
  induction ports generalizing started setups with
  | nil => simp [initPorts]
  | cons port ports ih =>
      rw [initPorts, bind_eq_ok_iff]
      constructor
      · rintro ⟨setup, hsetup, hrest⟩
        obtain ⟨rest, hports, hresult⟩ := bind_eq_ok_iff.mp hrest
        obtain ⟨hpower, hnew, hconfigures, rfl⟩ := portInit_eq_ok_iff.mp hsetup
        obtain ⟨-, hdistinct, hall, rfl⟩ := ih.mp hports
        cases hresult
        have hport : port ∉ ports := fun listed =>
          (hall port listed).1 List.mem_cons_self
        refine ⟨fun _ => hpower, List.nodup_cons.mpr ⟨hport, hdistinct⟩, ?_, rfl⟩
        intro other hother
        rcases List.mem_cons.mp hother with rfl | hlater
        · exact ⟨hnew, hconfigures⟩
        · exact ⟨fun before => (hall other hlater).1 (List.mem_cons_of_mem _ before),
            (hall other hlater).2⟩
      · rintro ⟨hpower, hdistinct, hall, rfl⟩
        obtain ⟨hport, hdistinct⟩ := List.nodup_cons.mp hdistinct
        have hfirst := hall port List.mem_cons_self
        refine ⟨portSetup nbWorkers port,
          portInit_eq_ok_iff.mpr ⟨hpower (List.cons_ne_nil _ _), hfirst.1, hfirst.2, rfl⟩, ?_⟩
        have hrest : initPorts env conf nbWorkers (port :: started) ports =
            .ok (ports.map (portSetup nbWorkers)) := by
          refine ih.mpr ⟨fun _ => hpower (List.cons_ne_nil _ _), hdistinct, ?_, rfl⟩
          intro other hother
          have hall := hall other (List.mem_cons_of_mem _ hother)
          refine ⟨fun before => ?_, hall.2⟩
          rcases List.mem_cons.mp before with rfl | before
          · exact hport hother
          · exact hall.1 before
        rw [hrest]
        rfl

theorem initPorts_ne_divisionByZero (started ports : List UInt8) :
    initPorts env conf nbWorkers started ports ≠ .error .divisionByZero := by
  induction ports generalizing started with
  | nil => exact nofun
  | cons port ports ih =>
      intro hcrash
      rw [initPorts, bind_eq_error_iff] at hcrash
      rcases hcrash with hport | ⟨setup, -, hrest⟩
      · rw [portInit] at hport
        split_ifs at hport <;> cases hport
      · rcases bind_eq_error_iff.mp hrest with hports | ⟨setups, -, hresult⟩
        · exact ih _ hports
        · cases hresult

/-- The module as it starts, for a number of workers of each port. -/
def startedWith (nbWorkers : Nat) (ports : List UInt8) : DpdkStarted :=
  ⟨ports.map (portSetup nbWorkers), (workerRingsOf (ports.map (portSetup nbWorkers))).zipIdx⟩

/-- The module starts exactly when there is a port and the checks are passed. -/
theorem dpdkCaptureStart_eq_ok_iff {started : DpdkStarted} :
    dpdkCaptureStart env conf = .ok started ↔
      (inputPorts env conf).length ≠ 0 ∧ PassesChecks env conf ∧
        startedWith (nbWorkersPerPort conf.threadCount.toNat (inputPorts env conf).length)
          (inputPorts env conf) = started := by
  rw [dpdkCaptureStart]
  simp only [Nat.mul_eq_zero, show nbReadersPerPort ≠ 0 by decide, or_false]
  split_ifs with hports hdivided hthreads hcores
  · exact iff_of_false nofun fun passes => passes.1 hports
  · exact iff_of_false nofun fun passes => hdivided passes.2.1.divided
  · exact iff_of_false nofun fun passes => passes.2.1.threads hthreads
  · exact iff_of_false nofun fun passes => absurd passes.2.1.cores (by omega)
  · have hfilled : inputPorts env conf ≠ [] := fun hnone => hports (by rw [hnone]; rfl)
    rw [bind_eq_ok_iff]
    constructor
    · rintro ⟨setups, hsetups, hresult⟩
      obtain ⟨hpower, hdistinct, hall, rfl⟩ := initPorts_eq_ok_iff.mp hsetups
      cases hresult
      exact ⟨hports, ⟨not_not.mp hdivided, hthreads, by omega, hpower hfilled, hdistinct,
        fun port listed => (hall port listed).2⟩, rfl⟩
    · rintro ⟨-, passes, rfl⟩
      refine ⟨_, initPorts_eq_ok_iff.mpr ⟨fun _ => passes.powerOfTwo, passes.distinct, ?_, rfl⟩,
        rfl⟩
      exact fun port listed => ⟨List.not_mem_nil, passes.configures port listed⟩

theorem dpdkCaptureStart_divides_iff :
    dpdkCaptureStart env conf ≠ .error .divisionByZero ↔ (inputPorts env conf).length ≠ 0 := by
  rw [not_iff_not, dpdkCaptureStart]
  simp only [Nat.mul_eq_zero, show nbReadersPerPort ≠ 0 by decide, or_false]
  split_ifs with hports hdivided hthreads hcores
  · exact iff_of_true rfl hports
  · exact iff_of_false nofun hports
  · exact iff_of_false nofun hports
  · exact iff_of_false nofun hports
  · refine iff_of_false (fun hcrash => ?_) hports
    rcases bind_eq_error_iff.mp hcrash with hloop | ⟨setups, -, hresult⟩
    · exact initPorts_ne_divisionByZero _ _ hloop
    · cases hresult

/-! ## Counting -/

/-- The rings of a port. -/
def ringsOfPort (nbWorkers : Nat) (port : UInt8) : List WorkerRing :=
  (List.range nbReadersPerPort).flatMap fun reader =>
    (List.range (nbWorkersPerReader nbWorkers)).map fun worker => ⟨port, reader, worker⟩

theorem workerRingsOf_eq (ports : List UInt8) :
    workerRingsOf (ports.map (portSetup nbWorkers)) = ports.flatMap (ringsOfPort nbWorkers) := by
  simp only [workerRingsOf, portSetup, List.flatMap_map, readerParam]
  rfl

theorem length_ringsOfPort (port : UInt8) :
    (ringsOfPort nbWorkers port).length = nbReadersPerPort * nbWorkersPerReader nbWorkers := by
  simp [ringsOfPort]

theorem port_of_mem_ringsOfPort {port : UInt8} {ring : WorkerRing}
    (listed : ring ∈ ringsOfPort nbWorkers port) : ring.port = port := by
  simp only [ringsOfPort, List.mem_flatMap, List.mem_map] at listed
  obtain ⟨reader, -, worker, -, rfl⟩ := listed
  rfl

/-- No two workers have the same ring. -/
theorem nodup_rings {ports : List UInt8} (distinct : ports.Nodup) :
    (ports.flatMap (ringsOfPort nbWorkers)).Nodup := by
  rw [List.nodup_flatMap]
  constructor
  · intro port _
    rw [ringsOfPort, List.nodup_flatMap]
    constructor
    · intro reader _
      exact List.nodup_range.map fun first second same => (WorkerRing.mk.inj same).2.2
    · refine List.nodup_range.imp fun {first second} different => ?_
      intro ring hfirst hsecond
      obtain ⟨worker, -, rfl⟩ := List.mem_map.mp hfirst
      obtain ⟨other, -, hother⟩ := List.mem_map.mp hsecond
      exact different (WorkerRing.mk.inj hother).2.1.symm
  · refine distinct.imp fun {first second} different => ?_
    intro ring hfirst hsecond
    exact different ((port_of_mem_ringsOfPort hfirst).symm.trans (port_of_mem_ringsOfPort hsecond))

/-- The places of `smp` that are written: one after the other, as many as there are rings. -/
theorem count_smp (ports : List UInt8) (i : Nat) :
    ((startedWith nbWorkers ports).smp.map Prod.snd).count i =
      if i < ports.length * (nbReadersPerPort * nbWorkersPerReader nbWorkers) then 1 else 0 := by
  have hlength : (ports.flatMap (ringsOfPort nbWorkers)).length =
      ports.length * (nbReadersPerPort * nbWorkersPerReader nbWorkers) := by
    simp [List.length_flatMap, length_ringsOfPort]
  rw [startedWith, workerRingsOf_eq, List.zipIdx_map_snd, hlength]
  rw [List.Nodup.count (List.nodup_range' _)]
  simp

theorem nbWorkersPerReader_two_mul {half : Nat} (small : 2 * half < 2 ^ 8) :
    nbWorkersPerReader (2 * half) = half := by
  rw [nbWorkersPerReader, nbReadersPerPort, Nat.mul_div_cancel_left half (by decide)]
  exact Nat.mod_eq_of_lt (by omega)

/-- The shares of the two readers, put together. -/
theorem range_two_mul (half : Nat) :
    (List.range nbReadersPerPort).flatMap (fun reader =>
      (List.range half).map fun i => half * reader + i) = List.range (2 * half) := by
  have hreaders : List.range nbReadersPerPort = [0, 1] := rfl
  have hsum : 2 * half = half + half := by omega
  rw [hreaders, hsum, List.range_add]
  simp

/-- With an even number of workers below 256, the queues of a port are numbered as they should
be. -/
theorem queues_eq {half : Nat} (small : 2 * half < 2 ^ 8) (port : UInt8) :
    (portSetup (2 * half) port).queues = List.range (2 * half) := by
  rw [portSetup, nbWorkersPerReader_two_mul small, ← range_two_mul half]
  apply List.flatMap_congr
  intro reader hreader
  apply List.map_congr_left
  intro i hi
  rw [List.mem_range] at hreader hi
  have hshare : half * reader ≤ half * 1 := Nat.mul_le_mul_left _ (Nat.le_of_lt_succ hreader)
  exact Nat.mod_eq_of_lt (by omega)

/-- The readers of a port poll these queues, one after the other. -/
theorem polls_eq {half : Nat} (small : 2 * half < 2 ^ 8) (port : UInt8) :
    ((portSetup (2 * half) port).readers.flatMap ReaderParam.polls).map Prod.fst =
      (List.range (2 * half)).map (port, ·) := by
  rw [← range_two_mul half, List.map_flatMap, List.map_flatMap, portSetup, List.flatMap_map]
  apply List.flatMap_congr
  intro reader hreader
  rw [readerParam, nbWorkersPerReader_two_mul small, ReaderParam.polls, List.map_map, List.map_map]
  apply List.map_congr_left
  intro i hi
  have hi : i < half := List.mem_range.mp hi
  have hshare : half * reader ≤ half * 1 :=
    Nat.mul_le_mul_left _ (Nat.le_of_lt_succ (List.mem_range.mp hreader))
  have hqueue : (reader * half % 2 ^ 8 + i) % 2 ^ 16 = half * reader + i := by
    rw [Nat.mul_comm reader half, Nat.mod_eq_of_lt (by omega), Nat.mod_eq_of_lt (by omega)]
  exact congrArg (Prod.mk port) hqueue

/-- What the readers of a port poll goes to the rings of the port. -/
theorem rings_of_polls (port : UInt8) :
    ((portSetup nbWorkers port).readers.flatMap ReaderParam.polls).map Prod.snd =
      ringsOfPort nbWorkers port := by
  rw [List.map_flatMap, portSetup, List.flatMap_map, ringsOfPort]
  apply List.flatMap_congr
  intro reader _
  rw [ReaderParam.polls, List.map_map]
  rfl

theorem started_polls_eq (ports : List UInt8) :
    (startedWith nbWorkers ports).polls =
      ports.flatMap fun port => (portSetup nbWorkers port).readers.flatMap ReaderParam.polls := by
  rw [DpdkStarted.polls, startedWith, List.flatMap_map]

/-- An even number of workers below 256 is assigned as it should be. -/
theorem partitioned_startedWith {ports : List UInt8} (distinct : ports.Nodup) {half : Nat}
    (small : 2 * half < 2 ^ 8) (filled : ports.length ≠ 0) :
    Partitioned (ports.length * (2 * half)) ports.length (startedWith (2 * half) ports) := by
  have hshare : ports.length * (2 * half) / ports.length = 2 * half :=
    Nat.mul_div_cancel_left _ (Nat.pos_of_ne_zero filled)
  have hrings : (startedWith (2 * half) ports).smp.map Prod.fst =
      ports.flatMap (ringsOfPort (2 * half)) := by
    rw [startedWith, List.zipIdx_map_fst, workerRingsOf_eq]
  constructor
  · intro i
    rw [count_smp, nbWorkersPerReader_two_mul small]
    rfl
  · intro setup hsetup queue
    obtain ⟨port, -, rfl⟩ := List.mem_map.mp hsetup
    rw [queues_eq small, hshare, List.Nodup.count List.nodup_range]
    simp only [List.mem_range]
  · intro setup hsetup queue hqueue
    obtain ⟨port, hport, rfl⟩ := List.mem_map.mp hsetup
    rw [hshare] at hqueue
    have hpolls : (startedWith (2 * half) ports).polls.map Prod.fst =
        ports.product (List.range (2 * half)) := by
      rw [started_polls_eq, List.map_flatMap]
      exact List.flatMap_congr fun port _ => polls_eq small port
    rw [hpolls]
    apply List.count_eq_one_of_mem (distinct.product List.nodup_range)
    exact List.pair_mem_product.mpr ⟨hport, List.mem_range.mpr hqueue⟩
  · intro poll hpoll
    rw [hrings]
    apply List.count_eq_one_of_mem (nodup_rings distinct)
    rw [started_polls_eq, List.mem_flatMap] at hpoll
    obtain ⟨port, hport, hpoll⟩ := hpoll
    refine List.mem_flatMap.mpr ⟨port, hport, ?_⟩
    rw [← rings_of_polls]
    exact List.mem_map_of_mem hpoll

/-! ## The exact condition -/

/-- The threads of a port, when they are divided among the readers. -/
theorem exists_half {total nbPorts : Nat} (divided : total % (nbPorts * nbReadersPerPort) = 0)
    (filled : nbPorts ≠ 0) : ∃ half, total = nbPorts * (2 * half) ∧ total / nbPorts = 2 * half := by
  obtain ⟨half, rfl⟩ := Nat.dvd_of_mod_eq_zero divided
  refine ⟨half, Nat.mul_assoc _ _ _, ?_⟩
  rw [Nat.mul_assoc, Nat.mul_div_cancel_left _ (Nat.pos_of_ne_zero filled)]
  rfl

/-- More threads than fit 8 bits leave places of `smp` without a worker. -/
theorem not_partitioned_of_large {ports : List UInt8} (filled : ports.length ≠ 0) {half : Nat}
    (large : 2 ^ 8 ≤ 2 * half) :
    ¬Partitioned (ports.length * (2 * half)) ports.length
      (startedWith (2 * half % 2 ^ 8) ports) := by
  intro partitioned
  have hlast := partitioned.initialised (ports.length * (2 * half) - 1)
  have hpos : 0 < ports.length * (2 * half) := Nat.mul_pos (Nat.pos_of_ne_zero filled) (by omega)
  have hfew : nbReadersPerPort * nbWorkersPerReader (2 * half % 2 ^ 8) < 2 * half := by
    rw [nbWorkersPerReader, nbReadersPerPort]
    omega
  have hless := Nat.mul_lt_mul_of_pos_left hfew (Nat.pos_of_ne_zero filled)
  rw [count_smp, if_neg (by omega), if_pos (by omega)] at hlast
  exact Nat.zero_ne_one hlast

/-- **The DPDK module assigns its queues to its workers exactly when there is a port and, if
the checks are passed, fewer than 256 threads for each port.** -/
theorem startsPartitioned_iff (env : DpdkEnv) (conf : DpdkConf) :
    StartsPartitioned env conf ↔
      (inputPorts env conf).length ≠ 0 ∧
        (PassesChecks env conf →
          conf.threadCount.toNat / (inputPorts env conf).length < 2 ^ 8) := by
  constructor
  · intro starts
    have hfilled := dpdkCaptureStart_divides_iff.mp starts.divides
    refine ⟨hfilled, fun passes => ?_⟩
    obtain ⟨half, htotal, hshare⟩ := exists_half passes.divided hfilled
    have hpartitioned := starts.partitioned _
      (dpdkCaptureStart_eq_ok_iff.mpr ⟨hfilled, passes, rfl⟩)
    rw [nbWorkersPerPort, hshare, htotal] at hpartitioned
    rw [hshare]
    by_contra hlarge
    exact not_partitioned_of_large hfilled (Nat.le_of_not_lt hlarge) hpartitioned
  · rintro ⟨hfilled, hsmall⟩
    refine ⟨dpdkCaptureStart_divides_iff.mpr hfilled, ?_⟩
    intro started hstarted
    obtain ⟨-, passes, rfl⟩ := dpdkCaptureStart_eq_ok_iff.mp hstarted
    obtain ⟨half, htotal, hshare⟩ := exists_half passes.divided hfilled
    have hsmall := hsmall passes
    rw [hshare] at hsmall
    rw [nbWorkersPerPort, hshare, Nat.mod_eq_of_lt hsmall, htotal]
    exact partitioned_startedWith passes.distinct hsmall hfilled

/-- A machine with many cores, on which every port can be configured with some queues. -/
def manyCores : DpdkEnv := ⟨32, 1024, fun _ nbWorkers => decide (0 < nbWorkers)⟩

/-- The default of `source` is the empty text: there are no ports, and the first check divides
by zero. With one port and 258 threads the checks are passed, and two threads get a worker. -/
theorem not_startsPartitioned :
    ¬StartsPartitioned manyCores ⟨.ofText "", 2, 1024⟩ ∧
      ¬StartsPartitioned manyCores ⟨.ofText "0", 258, 1024⟩ := by
  constructor
  · intro starts
    exact absurd (dpdkCaptureStart_divides_iff.mp starts.divides) (by decide)
  · intro starts
    have hports : inputPorts manyCores ⟨.ofText "0", 258, 1024⟩ = [0] := by decide
    have hpasses : PassesChecks manyCores ⟨.ofText "0", 258, 1024⟩ := by
      constructor
      · decide
      · decide
      · decide
      · decide
      · rw [hports]
        exact List.nodup_singleton _
      · exact fun _ _ => rfl
    have hpartitioned := starts.partitioned _
      (dpdkCaptureStart_eq_ok_iff.mpr ⟨by rw [hports]; decide, hpasses, rfl⟩)
    rw [hports] at hpartitioned
    have hlarge : ¬Partitioned ([(0 : UInt8)].length * (2 * 129)) [(0 : UInt8)].length
        (startedWith (2 * 129 % 2 ^ 8) [0]) := not_partitioned_of_large (by decide) (by decide)
    exact hlarge hpartitioned

end MmtProbe.Capture
