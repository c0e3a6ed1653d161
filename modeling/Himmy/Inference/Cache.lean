import Himmy.Inference.Models

/-! # The key of the response cache

`compute_cache_key` hashes the JSON text of a dictionary that is built by hand from a request. Two
keys are the same exactly when the fields that go into the dictionary say the same
(`computeCacheKey_eq_iff`): the surface of the request, and its scope. -/

namespace Himmy

open Value (data_dict_eq_iff dataAt ofOption dataFields)

def cacheScopeMetadataKeys : List String :=
  ["cache_scope", "tenant_id", "workspace_id", "subject_id"]

namespace InferenceRequest

variable (request : InferenceRequest)

/-- The text of a scope component: none when it is absent, `None` or empty. -/
def scopeComponent (key : String) : Option String :=
  match request.metadata.find? key with
  | none | some .null | some (.str "") => none
  | some value => some value.pyStr

def scopeParts : List String :=
  cacheScopeMetadataKeys.filterMap
    (fun key => (request.scopeComponent key).map (fun value => key ++ "=" ++ value))

def deriveCacheScope : Option String :=
  if request.scopeParts = [] then none else some ("|".intercalate request.scopeParts)

def gen : List (String × Value) :=
  (request.generationParams.items.insertionSort (fun a b => a.1 ≤ b.1)).filter
    (fun kv => kv.1 ≠ "use_cache")

def keyMessage (m : InferenceMessage) : Value := .dict [
  ("role", .str m.role),
  ("content", .str m.content),
  ("tool_call_id", .ofOption m.toolCallId),
  ("name", .ofOption m.name)]

def toolNames : List String :=
  (request.boundTools.map BoundTool.name).insertionSort (fun a b => a ≤ b)

def keyPayload : List (String × Value) := [
  ("model_key", .str request.modelKey),
  ("route_override", .ofOption request.routeOverride),
  ("response_format", .ofOption (request.responseFormat.map ResponseFormat.value)),
  ("output_json_schema", match request.outputJsonSchema with
    | some schema => .dict schema.items
    | none => .null),
  ("workflow", match request.workflow with
    | some workflow => workflow.dump
    | none => .null),
  ("messages", .list (request.messages.map keyMessage)),
  ("tool_names", .list (request.toolNames.map .str)),
  ("generation_params", .dict request.gen)]
    ++ (request.deriveCacheScope.toList.map (fun scope => ("cache_scope", .str scope))
    ++ request.seed.toList.map (fun seed => ("seed", .int seed)))

def computeCacheKey (D : Digests) : String := D.sha256 (Value.dict request.keyPayload).dumps

variable {request}

/-! ## What the dictionary says -/

def keyed (m : InferenceMessage) : String × String × Option String × Option String :=
  (m.role, m.content, m.toolCallId, m.name)

theorem keyMessage_inj {m m' : InferenceMessage} :
    (keyMessage m).data = (keyMessage m').data ↔ keyed m = keyed m' := by
  constructor
  · intro h
    have hkeys := (data_dict_eq_iff (by simp) (by simp)).1 h
    have hrole := hkeys "role"
    have hcontent := hkeys "content"
    have hcall := hkeys "tool_call_id"
    have hname := hkeys "name"
    simp [dataAt] at hrole hcontent hcall hname
    rw [keyed, keyed, hrole, hcontent, hcall, hname]
  · intro h
    simp only [keyed, Prod.mk.injEq] at h
    rw [keyMessage, keyMessage, h.1, h.2.1, h.2.2.1, h.2.2.2]

theorem dump_inj {w w' : WorkflowState} : w.dump.data = w'.dump.data ↔ w = w' := by
  constructor
  · intro h
    have hkeys := (data_dict_eq_iff (by simp) (by simp)).1 h
    have hdefinition := hkeys "definition"
    have hstep := hkeys "current_step"
    simp [dataAt] at hdefinition hstep
    have hsteps := (data_dict_eq_iff (by simp) (by simp)).1 hdefinition "steps"
    simp [dataAt] at hsteps
    obtain ⟨⟨steps⟩, currentStep⟩ := w
    obtain ⟨⟨steps'⟩, currentStep'⟩ := w'
    rw [show steps = steps' from hsteps, show currentStep = currentStep' from hstep]
  · rintro rfl
    rfl

theorem nodup_gen (r : InferenceRequest) : (r.gen.map Prod.fst).Nodup := by
  have hperm := List.perm_insertionSort (fun a b : String × Value => a.1 ≤ b.1)
    r.generationParams.items
  refine List.Nodup.sublist (List.filter_sublist.map Prod.fst) ?_
  exact (hperm.map Prod.fst).nodup_iff.2 r.generationParams.nodup_keys

theorem dataAt_gen (r : InferenceRequest) (k : String) : dataAt r.gen k
      = if k = "use_cache" then none else (r.generationParams.find? k).map Value.data := by
  have hmem : ∀ kv, kv ∈ r.gen ↔ kv ∈ r.generationParams.items ∧ kv.1 ≠ "use_cache" := by
    intro kv
    rw [gen, List.mem_filter, List.mem_insertionSort, decide_eq_true_eq]
  split
  · next hk =>
      rw [dataAt, Option.map_eq_none_iff, List.find?_eq_none]
      intro kv hkv hkey
      exact ((hmem kv).1 hkv).2 (by rw [of_decide_eq_true hkey, hk])
  · next hk =>
      rw [dataAt]
      cases hfind : r.generationParams.find? k with
      | none =>
        rw [Option.map_none, Option.map_eq_none_iff, List.find?_eq_none]
        intro kv hkv hkey
        have hitem := ((hmem kv).1 hkv).1
        rw [show kv = (k, kv.2) from Prod.ext (of_decide_eq_true hkey) rfl,
          ← Dict.find?_eq_some_iff, hfind] at hitem
        cases hitem
      | some v =>
        have hitem := Dict.find?_eq_some_iff.1 hfind
        rw [(Lists.find?_key_eq_some_iff (nodup_gen r)).2 ⟨(hmem (k, v)).2 ⟨hitem, hk⟩, rfl⟩]
        rfl

variable {r r' : InferenceRequest}

theorem toolNames_eq_iff : r.toolNames = r'.toolNames
      ↔ (r.boundTools.map BoundTool.name).Perm (r'.boundTools.map BoundTool.name) := by
  have hperm : ∀ r : InferenceRequest, r.toolNames.Perm (r.boundTools.map BoundTool.name) :=
    fun r => List.perm_insertionSort _ _
  constructor
  · intro h
    exact (hperm r).symm.trans ((List.Perm.of_eq h).trans (hperm r'))
  · intro h
    have : Std.Total (fun a b : String => a ≤ b) := ⟨String.le_total⟩
    have : IsTrans String (fun a b => a ≤ b) := ⟨fun _ _ _ => String.le_trans⟩
    exact ((hperm r).trans (h.trans (hperm r').symm)).eq_of_pairwise
      (fun _ _ _ _ => String.le_antisymm) (List.pairwise_insertionSort _ _)
      (List.pairwise_insertionSort _ _)

/-! ## What a key says -/

/-- The requests say the same in the fields that go into the key, their scope apart. -/
structure SameSurface (r r' : InferenceRequest) : Prop where
  modelKey : r.modelKey = r'.modelKey
  routeOverride : r.routeOverride = r'.routeOverride
  responseFormat : r.responseFormat = r'.responseFormat
  outputJsonSchema : r.outputJsonSchema.map (fun schema => (Value.dict schema.items).data)
    = r'.outputJsonSchema.map (fun schema => (Value.dict schema.items).data)
  workflow : r.workflow = r'.workflow
  messages : r.messages.map keyed = r'.messages.map keyed
  toolNames : (r.boundTools.map BoundTool.name).Perm (r'.boundTools.map BoundTool.name)
  params : ∀ k, k ≠ "use_cache" → (r.generationParams.find? k).map Value.data
    = (r'.generationParams.find? k).map Value.data
  seed : r.seed = r'.seed

theorem nodup_keyPayload (r : InferenceRequest) : (r.keyPayload.map Prod.fst).Nodup := by
  unfold keyPayload
  cases r.deriveCacheScope <;> cases r.seed <;> simp

theorem schema_inj {schema schema' : Option (Dict Value)} :
    (match schema with | some s => Value.dict s.items | none => .null).data
        = (match schema' with | some s => Value.dict s.items | none => .null).data
      ↔ schema.map (fun s => (Value.dict s.items).data)
        = schema'.map (fun s => (Value.dict s.items).data) := by
  cases schema <;> cases schema' <;> simp [Value.data]

theorem workflow_inj {workflow workflow' : Option WorkflowState} :
    (match workflow with | some w => w.dump | none => .null).data
        = (match workflow' with | some w => w.dump | none => .null).data
      ↔ workflow = workflow' := by
  have hne : ∀ w : WorkflowState, w.dump.data ≠ Value.null.data := by
    intro w h
    rw [WorkflowState.dump, Value.data, Value.data] at h
    cases h
  cases workflow <;> cases workflow' <;> simp [dump_inj, hne, (hne _).symm, -Value.data_null]

theorem params_inj : (Value.dict r.gen).data = (Value.dict r'.gen).data
      ↔ ∀ k, k ≠ "use_cache" → (r.generationParams.find? k).map Value.data
        = (r'.generationParams.find? k).map Value.data := by
  rw [data_dict_eq_iff (nodup_gen r) (nodup_gen r')]
  constructor
  · intro h k hk
    have hat := h k
    rwa [dataAt_gen, dataAt_gen, if_neg hk, if_neg hk] at hat
  · intro h k
    rw [dataAt_gen, dataAt_gen]
    split
    · rfl
    · next hk => exact h k hk

theorem messages_inj :
    (Value.list (r.messages.map keyMessage)).data = (Value.list (r'.messages.map keyMessage)).data
      ↔ r.messages.map keyed = r'.messages.map keyed := by
  rw [Value.data_list_map]
  constructor
  · exact Lists.map_eq_map_of_imp (fun m m' => keyMessage_inj.1)
  · exact Lists.map_eq_map_of_imp (fun m m' => keyMessage_inj.2)

theorem seed_inj {seed seed' : Option Int} :
    seed.map (fun n => (Value.int n).data) = seed'.map (fun n => (Value.int n).data)
      ↔ seed = seed' := by
  cases seed <;> cases seed' <;> simp

theorem scope_inj {scope scope' : Option String} :
    scope.map (fun s => (Value.str s).data) = scope'.map (fun s => (Value.str s).data)
      ↔ scope = scope' := by
  cases scope <;> cases scope' <;> simp

theorem responseFormat_inj {format format' : Option ResponseFormat} :
    (ofOption (format.map ResponseFormat.value)).data
        = (ofOption (format'.map ResponseFormat.value)).data ↔ format = format' := by
  rw [Value.data_ofOption_inj]
  exact (Option.map_injective ResponseFormat.value_injective).eq_iff

theorem dataAt_keyPayload (r : InferenceRequest) :
    dataAt r.keyPayload "model_key" = some (Value.str r.modelKey).data
    ∧ dataAt r.keyPayload "route_override" = some (ofOption r.routeOverride).data
    ∧ dataAt r.keyPayload "response_format"
      = some (ofOption (r.responseFormat.map ResponseFormat.value)).data
    ∧ dataAt r.keyPayload "output_json_schema" = some (match r.outputJsonSchema with
        | some schema => Value.dict schema.items
        | none => .null).data ∧ dataAt r.keyPayload "workflow" = some (match r.workflow with
        | some workflow => workflow.dump
        | none => Value.null).data
    ∧ dataAt r.keyPayload "messages" = some (Value.list (r.messages.map keyMessage)).data
    ∧ dataAt r.keyPayload "tool_names" = some (Value.list (r.toolNames.map .str)).data
    ∧ dataAt r.keyPayload "generation_params" = some (Value.dict r.gen).data
    ∧ dataAt r.keyPayload "cache_scope"
      = r.deriveCacheScope.map (fun scope => (Value.str scope).data)
    ∧ dataAt r.keyPayload "seed" = r.seed.map (fun seed => (Value.int seed).data) := by
  unfold dataAt keyPayload
  cases r.deriveCacheScope <;> cases r.seed <;> simp

theorem keyPayload_data_iff : (Value.dict r.keyPayload).data = (Value.dict r'.keyPayload).data
      ↔ SameSurface r r' ∧ r.deriveCacheScope = r'.deriveCacheScope := by
  constructor
  · intro h
    have hkeys := (data_dict_eq_iff (nodup_keyPayload r) (nodup_keyPayload r')).1 h
    obtain ⟨hmodel, hroute, hformat, hschema, hworkflow, hmessages, htools, hparams, hscope, hseed⟩ :=
      dataAt_keyPayload r
    obtain ⟨hmodel', hroute', hformat', hschema', hworkflow', hmessages', htools', hparams', hscope',
      hseed'⟩ := dataAt_keyPayload r'
    rw [hkeys] at hmodel hroute hformat hschema hworkflow hmessages htools hparams hscope hseed
    refine ⟨⟨?_, ?_, ?_, ?_, ?_, ?_, ?_, ?_, ?_⟩, ?_⟩
    · exact Value.data_str_inj.1 (Option.some.inj (hmodel.symm.trans hmodel'))
    · exact Value.data_ofOption_inj.1 (Option.some.inj (hroute.symm.trans hroute'))
    · exact responseFormat_inj.1 (Option.some.inj (hformat.symm.trans hformat'))
    · exact schema_inj.1 (Option.some.inj (hschema.symm.trans hschema'))
    · exact workflow_inj.1 (Option.some.inj (hworkflow.symm.trans hworkflow'))
    · exact messages_inj.1 (Option.some.inj (hmessages.symm.trans hmessages'))
    · exact toolNames_eq_iff.1 (Value.data_strs_inj.1 (Option.some.inj (htools.symm.trans htools')))
    · exact params_inj.1 (Option.some.inj (hparams.symm.trans hparams'))
    · exact seed_inj.1 (hseed.symm.trans hseed')
    · exact scope_inj.1 (hscope.symm.trans hscope')
  · rintro ⟨h, hscope⟩
    -- the same data in the same order
    have hfields : dataFields r.keyPayload = dataFields r'.keyPayload := by
      rw [Value.dataFields_eq_map, Value.dataFields_eq_map]
      simp only [keyPayload, List.map_append, List.map_cons, List.map_nil]
      rw [h.modelKey, h.routeOverride, h.responseFormat, schema_inj.2 h.outputJsonSchema, h.workflow,
        messages_inj.2 h.messages, toolNames_eq_iff.2 h.toolNames, params_inj.2 h.params, hscope,
        h.seed]
    rw [Value.data, Value.data, hfields]

/-- **The key.** Two requests have one key exactly when their surfaces and scopes are the same. -/
theorem computeCacheKey_eq_iff (D : Digests) (r r' : InferenceRequest) :
    r.computeCacheKey D = r'.computeCacheKey D
      ↔ SameSurface r r' ∧ r.deriveCacheScope = r'.deriveCacheScope := by
  rw [← keyPayload_data_iff, ← Value.dumps_eq_iff]
  exact D.collisionFree.eq_iff

end InferenceRequest

/-! ## The response cache and the prompt

What reaches the model of a request, compared with what its cache key says. The key leaves out the
tool calls that the messages carry in their metadata, the tools beyond their names, and the override
of the tool names; in all else two requests with one key agree (`cacheKey_samePrompt_iff`). -/

def BoundTool.advertised (tool : BoundTool) : String × String × JsonText.Data :=
  (tool.name, tool.description, (Value.dict tool.argsJsonSchema.items).data)

namespace InferenceRequest

/-- What a provider is told of a message: its fields, and the tool call that it answers. -/
def told (m : InferenceMessage) :
    (String × String × Option String × Option String) × Option JsonText.Data :=
  (keyed m, m.toolUseBlock.map Value.data)

/-- The same reaches the model; the tools may come in another order. -/
structure SamePrompt (r r' : InferenceRequest) : Prop where
  modelKey : r.modelKey = r'.modelKey
  routeOverride : r.routeOverride = r'.routeOverride
  messages : r.messages.map told = r'.messages.map told
  tools : (r.boundTools.map BoundTool.advertised).Perm (r'.boundTools.map BoundTool.advertised)
  toolNamesOverride : r.toolNamesOverride = r'.toolNamesOverride
  responseFormat : r.responseFormat = r'.responseFormat
  outputJsonSchema : r.outputJsonSchema.map (fun schema => (Value.dict schema.items).data)
    = r'.outputJsonSchema.map (fun schema => (Value.dict schema.items).data)
  workflow : r.workflow = r'.workflow
  params : ∀ k, k ≠ "use_cache" → (r.generationParams.find? k).map Value.data
    = (r'.generationParams.find? k).map Value.data
  seed : r.seed = r'.seed

/-- The requests agree on what the key leaves out: the tool calls of the messages, the tools, and the
    override of the tool names. -/
structure SameUnkeyed (r r' : InferenceRequest) : Prop where
  toolCalls : r.messages.map (fun m => m.toolUseBlock.map Value.data)
    = r'.messages.map (fun m => m.toolUseBlock.map Value.data)
  tools : (r.boundTools.map BoundTool.advertised).Perm (r'.boundTools.map BoundTool.advertised)
  toolNamesOverride : r.toolNamesOverride = r'.toolNamesOverride

variable {r r' : InferenceRequest}

theorem SameSurface.samePrompt_iff (h : SameSurface r r') : SamePrompt r r' ↔ SameUnkeyed r r' := by
  constructor
  · intro hprompt
    exact ⟨Lists.map_eq_map_of_imp (fun m m' htold => (Prod.mk.inj htold).2) hprompt.messages,
      hprompt.tools, hprompt.toolNamesOverride⟩
  · intro hunkeyed
    have hmessages : r.messages.map told = r'.messages.map told := by
      have hzip : ∀ ms : List InferenceMessage, ms.map told
          = (ms.map keyed).zip (ms.map (fun m => m.toolUseBlock.map Value.data)) :=
        fun _ => List.zip_map'.symm
      rw [hzip, hzip, h.messages, hunkeyed.toolCalls]
    exact ⟨h.modelKey, h.routeOverride, hmessages, hunkeyed.tools, hunkeyed.toolNamesOverride,
      h.responseFormat, h.outputJsonSchema, h.workflow, h.params, h.seed⟩

def askWithTool (description : String) : InferenceRequest :=
  { messages := [{ role := "user", content := "balance?" }]
    boundTools := [{ name := "lookup", description }] }

end InferenceRequest

end Himmy
