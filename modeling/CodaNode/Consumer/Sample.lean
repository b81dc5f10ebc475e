/-
`Consumer/Sample.lean` -- a node, a message and a world to try statements on.

The values are those of `tests/test_consumer.py`. The IR is kept as its text, which the
parser of the sample accepts if it is the one valid program of the tests.
-/
import CodaNode.Consumer.Loop

set_option autoImplicit false

namespace CodaNode

/-- `VALID_IR_JSON` of the tests. -/
def sample_ir : String :=
  "\x7b\"version\":\"1.0\",\"target\":\"cz\",\"num_qubits\":2," ++
  "\"gates\":[\x7b\"gate\":\"cz\",\"qubits\":[0,1],\"params\":[]\x7d]," ++
  "\"measurements\":[0,1]," ++
  "\"metadata\":\x7b\"source_hash\":\"abc123\"," ++
  "\"compiled_at\":\"2026-01-01T00:00:00Z\"\x7d\x7d"

/-- The result of the tests' executor. -/
def sample_result : ExecutionResult where
  counts := [("00", 1024)]
  execution_time_ms := 0x4062C00000000000
  shots_completed := 1024

/-- A node whose executor runs every job by `plan`, and every batch by `batch_run`. -/
def sample_node (plan : RunPlan)
    (batch_run : Option (Nat → List (String × Int) → Except Exn (List ExecutionResult))) :
    Node String where
  qpu_id := "test-node"
  can_batch := batch_run.isSome
  from_json s := if s = sample_ir then .ok s else .error "Invalid JSON"
  to_int s := if s = "1024" then .ok 1024 else .error "invalid literal for int() with base 10"
  run _ _ _ := plan
  batch_run := batch_run
  cancel_hook := false

/-- The fields of a message for the job, with the IR text `ir`. -/
def sample_fields (job_id ir : String) : List (String × String) :=
  [("job_id", job_id), ("ir_json", ir), ("shots", "1024"),
    ("callback_url", "https://example.com/hook")]

def sample_message (id job_id ir : String) : Message where
  id := id
  fields := (sample_fields job_id ir).map fun kv => (.str kv.1, .str kv.2)

theorem sample_message_header (id job_id ir : String) :
    (sample_message id job_id ir).header =
      .ok (sample_fields job_id ir, job_id, "https://example.com/hook") := rfl

/-- An empty Redis with these messages in the stream, and a new consumer. -/
def sample_world (messages : List Message) : World String where
  group := false
  hashes _ _ := none
  values _ := none
  stream := messages
  undelivered := messages
  pending := []
  self := {}
  frame := {}
  region := .outside
  tasks := []
  exec := {}
  now := "2025-01-01T00:00:00+00:00"
  monotonic := 0
  log := []

theorem sample_world_fresh (messages : List Message) : Fresh (sample_world messages) :=
  ⟨rfl, rfl, rfl, rfl, rfl, rfl⟩

theorem sample_node_parse (plan : RunPlan)
    (batch_run : Option (Nat → List (String × Int) → Except Exn (List ExecutionResult)))
    (job_id : String) :
    (sample_node plan batch_run).parse_job (sample_fields job_id sample_ir) =
      .ok (sample_ir, 1024) := by
  have hir : get_item (sample_fields job_id sample_ir) "ir_json" = .ok sample_ir := rfl
  have hshots : get_item (sample_fields job_id sample_ir) "shots" = .ok "1024" := rfl
  simp [Node.parse_job, hir, hshots, sample_node, Except.mapError, bind, Except.bind, pure,
    Except.pure]

/-- An executor that always ends the same way is ordinary if that way is. -/
theorem sample_node_ordinary {plan : RunPlan}
    {batch_run : Option (Nat → List (String × Int) → Except Exn (List ExecutionResult))}
    (hplan : ∀ e, plan.out = .error e → e.ordinary = true)
    (hbatch : ∀ f, batch_run = some f → ∀ k jobs e, f k jobs = .error e → e.ordinary = true) :
    (sample_node plan batch_run).Ordinary :=
  ⟨fun _ _ _ e h => hplan e h, hbatch⟩

end CodaNode
