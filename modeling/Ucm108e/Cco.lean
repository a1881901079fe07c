import Mathlib
import Ucm108e.NodeHeap
import Ucm108e.Thread

/-!
The concentrator application: `elec_cco_api.c` with its table of handlers, and the
part of `wg_phase.c` that its task runs. The task detects the carrier module,
initialises it and reads the nodes from it page by page.
-/
namespace Ucm108e.Cco
open Ucm108e.Bytes Ucm108e.Packer Ucm108e.WgPhase Ucm108e.NodeHeap Ucm108e.Gdw13762 Ucm108e.Thread
set_option linter.unusedSimpArgs false

/-- A call of `elec_1376_2_send`. -/
structure Send where
  afn : UInt8
  fn : UInt16
  data : List UInt8
  deriving DecidableEq

/-- The variables of `wg_phase.c`; the last three are static in their functions. -/
structure App where
  nodes : NodeHeap.State
  plc_detect_flag : UInt8
  wg_plc_detect_cnt : UInt8
  detect_cycle : UInt32
  last_plc_state : UInt8
  read_cycle : UInt32

def GDW1376_2_AFN_CONFIRM_0x00 : UInt8 := 0x00
def GDW1376_2_AFN_TRANSFER_0x02 : UInt8 := 0x02
def GDW1376_2_AFN_QUERY_0x03 : UInt8 := 0x03
def GDW1376_2_AFN_LINK_CHK_0x04 : UInt8 := 0x04
def GDW13766_2_AFN_CTRL_CMD_0x05 : UInt8 := 0x05
def GDW1376_2_AFN_ACTIVE_REPROT_0x06 : UInt8 := 0x06
def GDW1376_2_AFN_ROUTER_QUERY_0x10 : UInt8 := 0x10
def GDW1376_2_AFN_TEST_0xF0 : UInt8 := 0xf0

def sys_addr : List UInt8 := [0x11,0x22,0x33,0x44,0x55,0x66]

def plc_detect_flag_set (s : App) : App := { s with plc_detect_flag := 1, wg_plc_detect_cnt := 0 }

def plc_detect_flag_clr (s : App) : App := { s with plc_detect_flag := 0 }

def U16ToBuf_little_endian (x : UInt16) : List UInt8 := [x.toUInt8,(x >>> 8).toUInt8]

/-! ### The task -/

def wg_plc_mudule_detect (s : App) : App × List Send :=
  let s := { s with detect_cycle := s.detect_cycle+1 }
  if s.detect_cycle > 30000 then
    let s := { s with wg_plc_detect_cnt := s.wg_plc_detect_cnt+1 }
    let s := if s.wg_plc_detect_cnt ≥ 3 then plc_detect_flag_clr s else s
    ({ s with detect_cycle := 0 },[⟨GDW1376_2_AFN_QUERY_0x03,FN 10,[]⟩])
  else (s,[])

def wg_plc_set_master_addr : Send := ⟨GDW13766_2_AFN_CTRL_CMD_0x05,FN 1,sys_addr.reverse⟩

def wg_plc_whitelist_set (onoff : UInt8) : Send := ⟨GDW1376_2_AFN_TEST_0xF0,FN 4,[if onoff = 1 then 0x21 else 0x20]⟩

def wg_plc_mudule_init (s : App) : App × List Send :=
  if s.last_plc_state ≠ s.plc_detect_flag then
    ({ s with last_plc_state := s.plc_detect_flag },[wg_plc_set_master_addr,wg_plc_whitelist_set 0])
  else (s,[])

/-- `malloc` and `block` are for the upload that ends a cycle. -/
def wg_plc_read_and_load_node_info (malloc : Option Addr) (block : Mem) (s : App) : Except Fault (App × List Send) :=
  if s.plc_detect_flag ≠ 1 then .ok (s,[])
  else
    let s := { s with read_cycle := s.read_cycle+1 }
    if s.read_cycle < 20000 then .ok (s,[])
    else
      let s := { s with read_cycle := 0 }
      let info := s.nodes.wg_node_info
      if info.total = 0 then .ok (s,[⟨GDW1376_2_AFN_TEST_0xF0,FN 9,U16ToBuf_little_endian 1 ++ [15]⟩])
      else if info.index < info.total then
        .ok (s,[⟨GDW1376_2_AFN_TEST_0xF0,FN 23,U16ToBuf_little_endian info.index ++ [20]⟩])
      else do
        let (heap,_) ← NodeHeap.wg_plc_node_info_upload malloc block s.nodes.heap
        .ok ({ s with nodes := ⟨heap,{ info with total := 0, index := 0, ack_num := 0 }⟩ },[])

/-- The ways a poll of the node information can go. -/
inductive LoadCases (malloc : Option Addr) (block : Mem) (s : App) : Except Fault (App × List Send) → Prop
  | down (flag : s.plc_detect_flag ≠ 1) : LoadCases malloc block s (.ok (s,[]))
  | waits (flag : s.plc_detect_flag = 1) (early : s.read_cycle+1 < 20000) :
    LoadCases malloc block s (.ok ({ s with read_cycle := s.read_cycle+1 },[]))
  | asksTotal (flag : s.plc_detect_flag = 1) (due : ¬ s.read_cycle+1 < 20000)
      (unknown : s.nodes.wg_node_info.total = 0) :
    LoadCases malloc block s (.ok ({ s with read_cycle := 0 },
      [⟨GDW1376_2_AFN_TEST_0xF0,FN 9,U16ToBuf_little_endian 1 ++ [15]⟩]))
  | asksPage (flag : s.plc_detect_flag = 1) (due : ¬ s.read_cycle+1 < 20000)
      (known : s.nodes.wg_node_info.total ≠ 0) (more : s.nodes.wg_node_info.index < s.nodes.wg_node_info.total) :
    LoadCases malloc block s (.ok ({ s with read_cycle := 0 },
      [⟨GDW1376_2_AFN_TEST_0xF0,FN 23,U16ToBuf_little_endian s.nodes.wg_node_info.index ++ [20]⟩]))
  | ends (flag : s.plc_detect_flag = 1) (due : ¬ s.read_cycle+1 < 20000) (known : s.nodes.wg_node_info.total ≠ 0)
      (all : ¬ s.nodes.wg_node_info.index < s.nodes.wg_node_info.total) :
    LoadCases malloc block s ((NodeHeap.wg_plc_node_info_upload malloc block s.nodes.heap).map fun (heap,_) =>
      ({ s with
          read_cycle := 0
          nodes := ⟨heap,{ s.nodes.wg_node_info with total := 0, index := 0, ack_num := 0 }⟩ },[]))

theorem load_cases (malloc : Option Addr) (block : Mem) (s : App) :
    LoadCases malloc block s (wg_plc_read_and_load_node_info malloc block s) := by
  by_cases down : s.plc_detect_flag ≠ 1
  · rw [wg_plc_read_and_load_node_info,if_pos down]
    exact .down down
  have flag := not_not.mp down
  by_cases early : s.read_cycle+1 < 20000
  · simp only [wg_plc_read_and_load_node_info,if_neg down,if_pos early]
    exact .waits flag early
  by_cases unknown : s.nodes.wg_node_info.total = 0
  · simp only [wg_plc_read_and_load_node_info,if_neg down,if_neg early,if_pos unknown]
    exact .asksTotal flag early unknown
  by_cases more : s.nodes.wg_node_info.index < s.nodes.wg_node_info.total
  · simp only [wg_plc_read_and_load_node_info,if_neg down,if_neg early,if_neg unknown,if_pos more]
    exact .asksPage flag early unknown more
  · simp only [wg_plc_read_and_load_node_info,if_neg down,if_neg early,if_neg unknown,if_neg more]
    have ended : LoadCases malloc block s _ := .ends flag early unknown more
    cases upload : NodeHeap.wg_plc_node_info_upload malloc block s.nodes.heap with
    | error fault => rwa [upload] at ended
    | ok result => rwa [upload] at ended

def elec_cco_task (malloc : Option Addr) (block : Mem) (s : App) : Except Fault (App × List Send) := do
  let (s,detect) := wg_plc_mudule_detect s
  let (s,init) := wg_plc_mudule_init s
  let (s,load) ← wg_plc_read_and_load_node_info malloc block s
  .ok (s,detect ++ init ++ load)

/-! ### Received frames -/

/-- The functions that `elec_cco_recvfn` points to. -/
inductive Handler where
  | elec_cco_recv_confirm
  | elec_cco_recv_transfer
  | elec_cco_recv_query
  | elec_cco_recv_test
  deriving DecidableEq

def FN_MAX_NUM : Nat := 15

/-- `elec_cco_recvfn`: `none` is `RT_NULL`; the entries that are not given are zero. -/
def elec_cco_recvfn : List (UInt8 × Option Handler) :=
  [(GDW1376_2_AFN_CONFIRM_0x00,some .elec_cco_recv_confirm),
   (GDW1376_2_AFN_TRANSFER_0x02,some .elec_cco_recv_transfer),
   (GDW1376_2_AFN_QUERY_0x03,some .elec_cco_recv_query),
   (GDW1376_2_AFN_LINK_CHK_0x04,none),
   (GDW13766_2_AFN_CTRL_CMD_0x05,none),
   (GDW1376_2_AFN_ACTIVE_REPROT_0x06,none),
   (GDW1376_2_AFN_ROUTER_QUERY_0x10,none),
   (GDW1376_2_AFN_TEST_0xF0,some .elec_cco_recv_test)] ++ List.replicate (FN_MAX_NUM-8) (0,none)

def handle (malloc : Nat → Option Addr) (s : App) (fn : UInt16) (data : Mem) : Handler → Except Fault App
  | .elec_cco_recv_confirm => .ok s
  | .elec_cco_recv_transfer => .ok s
  | .elec_cco_recv_query => .ok (if fn = FN 10 then plc_detect_flag_set s else s)
  | .elec_cco_recv_test => (NodeHeap.wg_plc_recv_node_info malloc fn data s.nodes).map fun nodes => { s with nodes := nodes }

/-- `elec_cco_recv`; the pointer of the first entry for the function code is
    called as it is. -/
def elec_cco_recv (malloc : Nat → Option Addr) (datain : S13762Format) (s : App) : Except Fault App :=
  match elec_cco_recvfn.find? fun entry => datain.afn = entry.1 with
  | none => .ok s
  | some (_,none) => .error .nullCall
  | some (_,some pfunc) => handle malloc s datain.fn datain.data pfunc

def elec_cco_init (malloc : Option Addr) : App :=
  ⟨⟨wg_node_init NodeHeap.empty malloc,⟨0,0,0,0⟩⟩,0,0,0,0,0⟩

/-! ### The thread -/

/-- What a turn of the thread meets, the results of `rt_malloc` in the application
    included. -/
structure CcoTurn where
  turn : Turn (Format .cco)
  recv_malloc : Nat → Option Addr
  task_malloc : Option Addr
  task_block : Mem

/-- The thread in concentrator mode; `elec_cco_recv` changes nothing in the buffer
    it is given. -/
structure System where
  thread : ThreadState (Format .cco)
  app : Except Fault App

/-- What `elec_cco_recv` is called with in a turn. -/
def received (cfg : Config) (s : System) (x : CcoTurn) : Option S13762Format :=
  (elec_dev_thread (elec_dev_register cfg .cco id) s.thread x.turn).2

/-- The application in a turn: the frame if there is one, and the task. -/
def appTurn (frame : Option S13762Format) (x : CcoTurn) (s : App) : Except Fault (App × List Send) := do
  let s ← match frame with
    | some datain => elec_cco_recv x.recv_malloc datain s
    | none => .ok s
  elec_cco_task x.task_malloc x.task_block s

def step (cfg : Config) (s : System) (x : CcoTurn) : System × Option (List Send) :=
  let thread := (elec_dev_thread (elec_dev_register cfg .cco id) s.thread x.turn).1
  match s.app.bind (appTurn (received cfg s x) x) with
  | .ok (app,sends) => (⟨thread,.ok app⟩,some sends)
  | .error fault => (⟨thread,.error fault⟩,none)

def init (malloc : Option Addr) (buf : Mem) (data_buf : S13762Format) : System :=
  ⟨⟨packInit buf,data_buf⟩,.ok (elec_cco_init malloc)⟩

end Ucm108e.Cco
