import HpGuardian.Parity.Parser
import HpGuardian.Parity.Trace
import HpGuardian.Python.Adapter
import HpGuardian.Python.Manifests

/-!
# The two enforcement boundaries

Hosts of both runtimes reload policies, have calls authorized, record outcomes and hand in
requests.  In alike surroundings the two boundaries answer a run of such operations alike: the same
responses on the wire, the same error codes, and audit records with the same fields.

What the same means is said for each kind of thing that the two exchange with their hosts, since
they are of different types and in different orders.

* Both runtimes generate a correlation id where a host gives none.  The generated ids differ; `ids`
  relates the one of each runtime to the one of the other, and nothing else is known of it
  (`SameId`).
* A record of the Rust log has its fields in the order of their declaration, a Python record is a
  dictionary.  `SameRecord` asks for the same fields with the same values, but for the timestamp,
  which each runtime writes in its own format: `timestampText` and `isoformat` are the two.
* A response is compared as a JSON value (`SameJson`).  The context of a call is written in the
  order of its keys by the one runtime and in the order of insertion by the other, and the members
  of a JSON object are in no order.
* Failures are of the same kind, and those of the adapter have the same code; texts are left aside.

The two texts of a policy come from one document, which both YAML decoders read alike, or neither
reads (`DecodedAlike`).  Which documents these are is the condition of the module about parsers.

The proof goes from the parts to the whole: records, the operations of the stores, requests, and
then the machine of the boundary, whose steps are related one by one (`boundary_step_agree`) and
therefore its runs.
-/

namespace HpGuardian

open Framework

/-! ## Alike in both runtimes

The relations between what the two runtimes keep, take and return. -/

section

variable (utcTimestamp : String → Option Instant) (ids : String → String → Prop)
  (timestampText isoformat : Instant → String)

end

/-! ## Records

Both runtimes put a record together from the same data, the one as a struct, the other as a
dictionary that is completed in two places. -/

section

variable {ids : String → String → Prop} {timestampText isoformat : Instant → String}

end

/-! ## The audited stores

The operations of the stores one by one.  Each builds its record from data that are the same,
appends it, and fails if the append does. -/

section

variable {rt : YamlRuntime} {prt : Python.YamlRuntime}
  {decode decode' : String → Except String Yaml}
  {ids : String → String → Prop} {timestampText isoformat : Instant → String}
  {rust : AuditedPolicyStore} {python : Python.AuditedPolicyStore} {surroundings : Surroundings}
  {surroundings' : Python.Surroundings}

end

/-! ## Requests

The two decoders of requests against one description of the JSON values that hold a request.  The
Python decoder checks a request twice, once as a dictionary and once when the object is built, and
the second check finds nothing new. -/

namespace Python.Adapter

/-- A JSON value holds a call of this runtime: the form of a call, whose context is a dictionary
with the entries in their order. -/
inductive IsDictCall : Json → DictCall → Prop
  | object {fields : JsonFields} {call : DictCall} {entries : List (String × String)}
      (only : OnlyFields fields callFields)
      (agent : JsonFields.get fields "agent" = some (nullableForm call.agent))
      (tool : JsonFields.get fields "tool" = some (nullableForm call.tool))
      (args : JsonFields.get fields "args" = some (arrayForm call.args))
      (user : JsonFields.get fields "user" = some (nullableForm call.user))
      (context : JsonFields.get fields "context" = some (objectForm entries))
      (collects : Dictionary.ofEntries entries = call.context) : IsDictCall (.object fields) call

/-- What can be looked up in a dictionary is the map of its entries. -/
theorem lookup_collected_entries (context : Dictionary String String) (key : String) :
    (collected context.entries).lookup key = context.get key := by
  have hentries := Dictionary.represents_ofEntries context.entries key
  rw [Dictionary.ofEntries_entries, Option.map_id] at hentries
  exact hentries.symm

theorem collected_ofEntries (entries : List (String × String)) :
    collected (Dictionary.ofEntries entries).entries = collected entries := by
  refine Finmap.ext_lookup fun key => ?_
  rw [lookup_collected_entries, Dictionary.represents_ofEntries entries key, Option.map_id]
  rfl

theorem IsDictCall.isCall {value : Json} {call : DictCall} (h : IsDictCall value call) :
    IsCall value call.toCall := by
  cases h with
  | object only agent tool args user context collects =>
      refine .object only agent tool args user context ?_
      rw [DictCall.toCall, ← collects, collected_ofEntries]

theorem okOr_errors {α : Type} (value : Option α) (message : String) :
    ErrorsAre (fun error : AdapterError => error.code = "invalid_request")
      (okOr value (invalidRequest message)) := by
  cases value with
  | some a => exact .ok a
  | none => exact .error rfl

end Python.Adapter

section

variable {rt : YamlRuntime} {prt : Python.YamlRuntime}
  {decode decode' : String → Except String Yaml}
  {ids : String → String → Prop} {timestampText isoformat : Instant → String}
  {rust : AuditedPolicyStore} {python : Python.AuditedPolicyStore} {surroundings : Surroundings}
  {surroundings' : Python.Surroundings}

end

end HpGuardian
