import VirtioMem.Core.DeviceXml

/-!
# The device of an alias

The walk over the domain XML recovers the devices by counting open elements and cuts them out at byte
offsets. Over well-nested content both are right: inside of a device nothing is looked at until its own
end tag, and what lies between its offsets is its text (`walk_inside`, `walk_content`). So the walk does
for the devices, one after the other, what `select` does for one, and the rest is about lists
(`parseVirtioMemXmlForAlias_spec`).

An element without an end tag of its own is not looked at, a device among them neither.
-/

namespace VirtioMem.Core

open VirtioMem.Markup VirtioMem.Result

/-! ## The devices of a document -/

/-- Whether this is the start tag of a device. -/
def isDevice (tag : Tag) : Prop :=
  tag.name = "memory" ∧ attributeOf tag "model" = .ok (some "virtio-mem")

instance (tag : Tag) : Decidable (isDevice tag) := inferInstanceAs (Decidable (_ ∧ _))

/-- The outermost devices that have an end tag, each with its text. -/
def devices : Content → List (List Token)
  | .nil => []
  | .text _ _ next => devices next
  | .empty _ _ next => devices next
  | .other _ _ next => devices next
  | .element tag opened content closed next =>
    if isDevice tag then
      (⟨.start tag, opened⟩ :: (content.tokens ++ [⟨.close tag.name, closed⟩])) :: devices next
    else devices content ++ devices next

/-- The model of every memory element outside of the devices can be read. -/
def Readable : Content → Prop
  | .nil => True
  | .text _ _ next => Readable next
  | .empty _ _ next => Readable next
  | .other _ _ next => Readable next
  | .element tag _ content _ next =>
    (tag.name = "memory" → ∃ model, attributeOf tag "model" = .ok model) ∧
      (¬isDevice tag → Readable content) ∧ Readable next

/-- A device is read on its own and looked at for the alias. -/
def consider (expectedAlias : String) (selected : Option VirtioMemXmlState) (device : List Token) :
    Except VirtioMemXmlError (Option VirtioMemXmlState) := do
  DeviceSearch.select selected expectedAlias (← parseVirtioMemXml device)

/-! ## The walk -/

theorem ok_bind {α β : Type} (value : α) (next : α → Except VirtioMemXmlError β) :
    (Except.ok value >>= next) = next value := rfl

section Walk

variable {xml : List Token} {expectedAlias : String}

/-- Inside of a device only the depth is counted, and it comes back to what it was. -/
theorem walk_inside (content : Content) (position start depth : Nat)
    (selected : Option VirtioMemXmlState) :
    content.tokens.foldlM (DeviceSearch.step xml expectedAlias)
        ⟨position, some start, depth + 1, selected⟩ =
      .ok ⟨position + size content.tokens, some start, depth + 1, selected⟩ := by
  induction content generalizing position depth with
  | nil => rfl
  | text content bytes next ih | empty content bytes next ih | other content bytes next ih =>
    rw [Content.tokens, List.foldlM_cons, size_cons, ← Nat.add_assoc]
    exact ih _ _
  | element tag opened content closed next ihContent ihNext =>
    have hstart : DeviceSearch.step xml expectedAlias ⟨position, some start, depth + 1, selected⟩
        ⟨.start tag, opened⟩ = .ok ⟨position + opened, some start, depth + 1 + 1, selected⟩ := rfl
    have hclose : ∀ position, DeviceSearch.step xml expectedAlias
        ⟨position, some start, depth + 1 + 1, selected⟩ ⟨.close tag.name, closed⟩ =
          .ok ⟨position + closed, some start, depth + 1, selected⟩ := fun _ => rfl
    rw [Content.tokens, List.foldlM_cons, hstart, ok_bind, List.foldlM_append, ihContent, ok_bind,
      List.foldlM_cons, hclose, ok_bind, ihNext]
    simp only [size_cons, size_append, Nat.add_assoc]

/-- At the end tag of a device its text is cut out and considered. -/
theorem step_close {front device back : List Token} {name : String} {closed : Bytes}
    (hxml : xml = front ++ (device ++ [⟨.close name, closed⟩] ++ back))
    (selected : Option VirtioMemXmlState) :
    DeviceSearch.step xml expectedAlias
        ⟨size front + size device, some (size front), 1, selected⟩ ⟨.close name, closed⟩ =
      consider expectedAlias selected (device ++ [⟨.close name, closed⟩]) >>= fun selected =>
        .ok ⟨size front + size device + closed, none, 0, selected⟩ := by
  have hslice : slice xml (size front) (size front + size device + closed) =
      device ++ [⟨.close name, closed⟩] := by
    rw [hxml, show size front + size device + closed =
      size front + size (device ++ [⟨.close name, closed⟩]) by simp [Nat.add_assoc]]
    exact slice_append ..
  show (parseVirtioMemXml (slice xml (size front) (size front + size device + closed)) >>= _) = _
  rw [hslice, consider, bind_assoc]
  rfl

/-- A token that is passed over. -/
theorem walk_past {token : Token} {content : List Token} {front back : List Token}
    {devices : List (List Token)} {selected : Option VirtioMemXmlState}
    (hstep : DeviceSearch.step xml expectedAlias ⟨size front, none, 0, selected⟩ token =
      .ok ⟨size front + token.bytes, none, 0, selected⟩)
    (hxml : xml = front ++ (token :: content ++ back))
    (hrest : ∀ front back, xml = front ++ (content ++ back) →
      content.foldlM (DeviceSearch.step xml expectedAlias) ⟨size front, none, 0, selected⟩ =
        devices.foldlM (consider expectedAlias) selected >>= fun selected =>
          .ok ⟨size front + size content, none, 0, selected⟩) :
    (token :: content).foldlM (DeviceSearch.step xml expectedAlias) ⟨size front, none, 0, selected⟩ =
      devices.foldlM (consider expectedAlias) selected >>= fun selected =>
        .ok ⟨size front + size (token :: content), none, 0, selected⟩ := by
  have hnext := hrest (front ++ [token]) back (by simp [hxml])
  rw [show size (front ++ [token]) = size front + token.bytes by simp] at hnext
  rw [List.foldlM_cons, hstep, size_cons, ← Nat.add_assoc]
  exact hnext

/-- **The walk over well-nested content** considers its devices, one after the other. -/
theorem walk_content (content : Content) (front back : List Token) (hreadable : Readable content)
    (hxml : xml = front ++ (content.tokens ++ back)) (selected : Option VirtioMemXmlState) :
    content.tokens.foldlM (DeviceSearch.step xml expectedAlias) ⟨size front, none, 0, selected⟩ =
      (devices content).foldlM (consider expectedAlias) selected >>= fun selected =>
        .ok ⟨size front + size content.tokens, none, 0, selected⟩ := by
  induction content generalizing front back selected with
  | nil => rfl
  | text content bytes next ih | empty content bytes next ih | other content bytes next ih =>
    exact walk_past rfl hxml fun front back hxml => ih front back hreadable hxml selected
  | element tag opened content closed next ihContent ihNext =>
    obtain ⟨hmodel, hcontent, hnext⟩ := hreadable
    -- A device is passed over whole and considered at its end; any other element is walked into.
    by_cases hdevice : isDevice tag
    · have hstart : DeviceSearch.step xml expectedAlias ⟨size front, none, 0, selected⟩
          ⟨.start tag, opened⟩ = .ok ⟨size front + opened, some (size front), 1, selected⟩ := by
        simp [DeviceSearch.step, hdevice.1, hdevice.2, bind, Except.bind, pure, Except.pure]
      obtain ⟨device, hdeviceText⟩ : ∃ device, device = ⟨.start tag, opened⟩ :: content.tokens :=
        ⟨_, rfl⟩
      have hsize : size device = opened + size content.tokens := by simp [hdeviceText]
      have hdevices : devices (.element tag opened content closed next) =
          (device ++ [⟨.close tag.name, closed⟩]) :: devices next := by
        rw [devices, if_pos hdevice, hdeviceText]
        rfl
      have htext : xml =
          front ++ (device ++ [⟨.close tag.name, closed⟩] ++ (next.tokens ++ back)) := by
        simpa [Content.tokens, hdeviceText] using hxml
      have hbehind : size (front ++ (device ++ [⟨.close tag.name, closed⟩])) =
          size front + size device + closed := by
        simp [Nat.add_assoc]
      rw [Content.tokens, List.foldlM_cons, hstart, ok_bind, List.foldlM_append, walk_inside, ok_bind,
        List.foldlM_cons, Nat.add_assoc, ← hsize, step_close htext, hdevices, List.foldlM_cons,
        bind_assoc, bind_assoc]
      congr 1
      funext considered
      have hrest := ihNext (front ++ (device ++ [⟨.close tag.name, closed⟩])) back hnext
        (by simpa using htext) considered
      rw [hbehind] at hrest
      rw [ok_bind, hrest]
      simp only [size_cons, size_append, hsize, Nat.add_assoc]
    · have hstart : DeviceSearch.step xml expectedAlias ⟨size front, none, 0, selected⟩
          ⟨.start tag, opened⟩ = .ok ⟨size front + opened, none, 0, selected⟩ := by
        by_cases hname : tag.name = "memory"
        · obtain ⟨model, hmodel⟩ := hmodel hname
          have hother : model ≠ some "virtio-mem" := by
            rintro rfl
            exact hdevice ⟨hname, hmodel⟩
          simp [DeviceSearch.step, hname, hmodel, hother, bind, Except.bind, pure, Except.pure]
        · simp [DeviceSearch.step, hname]
      have hclose : ∀ position selected, DeviceSearch.step xml expectedAlias
          ⟨position, none, 0, selected⟩ ⟨.close tag.name, closed⟩ =
            .ok ⟨position + closed, none, 0, selected⟩ := fun _ _ => rfl
      -- Both hypotheses of the induction, at the places where the parts stand in the text.
      have hfirst := ihContent (front ++ [⟨.start tag, opened⟩])
        (⟨.close tag.name, closed⟩ :: (next.tokens ++ back)) (hcontent hdevice)
        (by simpa [Content.tokens] using hxml) selected
      rw [show size (front ++ [⟨.start tag, opened⟩]) = size front + opened by simp] at hfirst
      have hrest := ihNext (front ++ (⟨.start tag, opened⟩ :: (content.tokens ++
        [⟨.close tag.name, closed⟩]))) back hnext (by simpa [Content.tokens] using hxml)
      rw [show size (front ++ (⟨.start tag, opened⟩ :: (content.tokens ++
        [⟨.close tag.name, closed⟩]))) = size front + opened + size content.tokens + closed by
          simp [Nat.add_assoc]] at hrest
      rw [Content.tokens, List.foldlM_cons, hstart, ok_bind, List.foldlM_append, hfirst, devices,
        if_neg hdevice, List.foldlM_append, bind_assoc, bind_assoc]
      congr 1
      funext considered
      rw [ok_bind, List.foldlM_cons, hclose, ok_bind, hrest]
      simp only [size_cons, size_append, Nat.add_assoc]

/-- The device of an alias is looked for among the devices alone. -/
theorem parseVirtioMemXmlForAlias_eq (document : Content) (hreadable : Readable document)
    (expectedAlias : String) :
    parseVirtioMemXmlForAlias document.tokens expectedAlias =
      (devices document).foldlM (consider expectedAlias) none >>= fun selected =>
        okOr selected (.aliasNotFound expectedAlias) := by
  have hwalk : document.tokens.foldlM (DeviceSearch.step document.tokens expectedAlias) .init = _ :=
    walk_content document [] [] hreadable (by simp) none
  rw [parseVirtioMemXmlForAlias, hwalk, bind_assoc]
  rfl

end Walk

/-! ## Lists of devices -/

/-- What is selected where these states carry the alias. -/
def chosen (expectedAlias : String) :
    List VirtioMemXmlState → Except VirtioMemXmlError (Option VirtioMemXmlState)
  | [] => .ok none
  | [state] => .ok (some state)
  | _ :: _ :: _ => .error (.duplicateAlias expectedAlias)

/-- The states that carry the alias. -/
def carriers (expectedAlias : String) (parsed : List VirtioMemXmlState) : List VirtioMemXmlState :=
  parsed.filter fun state => state.aliasName = expectedAlias

/-- Devices that can be read are considered as what is read of them. -/
theorem consider_parsed {expectedAlias : String} {texts : List (List Token)}
    {parsed : List VirtioMemXmlState} (h : texts.map parseVirtioMemXml = parsed.map .ok)
    (selected : Option VirtioMemXmlState) :
    texts.foldlM (consider expectedAlias) selected =
      parsed.foldlM (fun selected => DeviceSearch.select selected expectedAlias) selected := by
  induction texts generalizing parsed selected with
  | nil =>
    obtain rfl := List.map_eq_nil_iff.mp h.symm
    rfl
  | cons text texts ih =>
    obtain ⟨state, rest, rfl, hstate, hrest⟩ := List.map_eq_cons_iff.mp h.symm
    rw [List.foldlM_cons, List.foldlM_cons, consider, ← hstate, ok_bind]
    congr 1
    funext next
    exact ih hrest.symm next

theorem select_parsed {expectedAlias : String} {parsed : List VirtioMemXmlState}
    (selected : Option VirtioMemXmlState) :
    parsed.foldlM (fun selected => DeviceSearch.select selected expectedAlias) selected =
      chosen expectedAlias (selected.toList ++ carriers expectedAlias parsed) := by
  induction parsed generalizing selected with
  | nil => cases selected <;> rfl
  | cons state parsed ih =>
    rw [List.foldlM_cons, DeviceSearch.select, carriers]
    by_cases hcarries : state.aliasName = expectedAlias
    · rw [if_pos hcarries, List.filter_cons_of_pos (by simpa using hcarries)]
      cases selected with
      | none => exact ih (some state)
      | some first => rfl
    · rw [if_neg hcarries, List.filter_cons_of_neg (by simpa using hcarries)]
      exact ih selected

/-- Where every device can be read, the outcome is a matter of how many carry the alias. -/
theorem parseVirtioMemXmlForAlias_parsed {document : Content} (hreadable : Readable document)
    {expectedAlias : String} {parsed : List VirtioMemXmlState}
    (h : (devices document).map parseVirtioMemXml = parsed.map .ok) :
    parseVirtioMemXmlForAlias document.tokens expectedAlias =
      chosen expectedAlias (carriers expectedAlias parsed) >>= fun selected =>
        okOr selected (.aliasNotFound expectedAlias) := by
  rw [parseVirtioMemXmlForAlias_eq document hreadable, consider_parsed h, select_parsed]
  rfl

theorem exists_parsed {texts : List (List Token)}
    (h : ∀ text ∈ texts, ∃ state, parseVirtioMemXml text = .ok state) :
    ∃ parsed : List VirtioMemXmlState, texts.map parseVirtioMemXml = parsed.map .ok := by
  induction texts with
  | nil => exact ⟨[], rfl⟩
  | cons text texts ih =>
    obtain ⟨state, hstate⟩ := h text List.mem_cons_self
    obtain ⟨parsed, hparsed⟩ := ih fun text htext => h text (List.mem_cons_of_mem _ htext)
    exact ⟨state :: parsed, by rw [List.map_cons, List.map_cons, hstate, hparsed]⟩

/-- The order of what carries the alias is of no matter. -/
theorem chosen_perm {expectedAlias : String} {states states' : List VirtioMemXmlState}
    (h : states'.Perm states) : chosen expectedAlias states' = chosen expectedAlias states := by
  rcases states with _ | ⟨state, _ | ⟨next, rest⟩⟩
  · rw [h.eq_nil]
  · rw [List.perm_singleton.mp h]
  · have hlength := h.length_eq
    rcases states' with _ | ⟨state', _ | ⟨next', rest'⟩⟩
    · simp at hlength
    · simp at hlength
    · rfl

theorem carriers_perm {expectedAlias : String} {texts texts' : List (List Token)}
    {parsed parsed' : List VirtioMemXmlState} (h : texts.map parseVirtioMemXml = parsed.map .ok)
    (h' : texts'.map parseVirtioMemXml = parsed'.map .ok) (hperm : texts'.Perm texts) :
    (carriers expectedAlias parsed').Perm (carriers expectedAlias parsed) := by
  have hread : ∀ states : List VirtioMemXmlState,
      (states.map (.ok : _ → Except VirtioMemXmlError _)).filterMap Except.toOption = states := by
    intro states
    rw [List.filterMap_map]
    exact List.filterMap_some
  have hstates := (hperm.map parseVirtioMemXml).filterMap Except.toOption
  rw [h, h', hread, hread] at hstates
  exact hstates.filter _

/-- **Devices are selected exactly.** Where the devices of a document can be read, what is returned is
what is read of the only one that carries the alias; if none does, or more than one, that is the error;
and another document with the same devices, in any order and wherever they stand in it, gives the same.
A device that cannot be read fails the call, unless two before it carry the alias. -/
theorem parseVirtioMemXmlForAlias_spec (document : Content) (hreadable : Readable document)
    (expectedAlias : String) :
    (∀ parsed, (devices document).map parseVirtioMemXml = parsed.map .ok →
      (∀ state, parseVirtioMemXmlForAlias document.tokens expectedAlias = .ok state ↔
        carriers expectedAlias parsed = [state]) ∧
      (parseVirtioMemXmlForAlias document.tokens expectedAlias =
        .error (.aliasNotFound expectedAlias) ↔ carriers expectedAlias parsed = []) ∧
      (parseVirtioMemXmlForAlias document.tokens expectedAlias =
        .error (.duplicateAlias expectedAlias) ↔ 2 ≤ (carriers expectedAlias parsed).length)) ∧
    (∀ document', Readable document' → (devices document').Perm (devices document) →
      (∀ device ∈ devices document, ∃ state, parseVirtioMemXml device = .ok state) →
      parseVirtioMemXmlForAlias document'.tokens expectedAlias =
        parseVirtioMemXmlForAlias document.tokens expectedAlias) ∧
    ∀ before device after parsed error, devices document = before ++ device :: after →
      before.map parseVirtioMemXml = parsed.map .ok → (carriers expectedAlias parsed).length ≤ 1 →
      parseVirtioMemXml device = .error error →
      parseVirtioMemXmlForAlias document.tokens expectedAlias = .error error := by
  refine ⟨fun parsed hparsed => ?_, ?_, ?_⟩
  · rw [parseVirtioMemXmlForAlias_parsed hreadable hparsed]
    rcases carriers expectedAlias parsed with _ | ⟨state, _ | ⟨state', rest⟩⟩
    · simp [chosen, ok_bind, okOr]
    · simp [chosen, ok_bind, okOr]
    · simp [chosen, bind, Except.bind]
  · intro document' hreadable' hperm hall
    obtain ⟨parsed, hparsed⟩ := exists_parsed hall
    obtain ⟨parsed', hparsed'⟩ := exists_parsed fun device hdevice =>
      hall device (hperm.subset hdevice)
    rw [parseVirtioMemXmlForAlias_parsed hreadable hparsed,
      parseVirtioMemXmlForAlias_parsed hreadable' hparsed',
      chosen_perm (carriers_perm hparsed hparsed' hperm)]
  · intro before device after parsed error hdevices hbefore hcarriers hfailed
    have hchosen : ∃ selected, chosen expectedAlias (carriers expectedAlias parsed) = .ok selected := by
      rcases hstates : carriers expectedAlias parsed with _ | ⟨state, _ | ⟨state', rest⟩⟩
      · exact ⟨none, rfl⟩
      · exact ⟨some state, rfl⟩
      · rw [hstates] at hcarriers
        simp at hcarriers
    obtain ⟨selected, hselected⟩ := hchosen
    rw [parseVirtioMemXmlForAlias_eq document hreadable, hdevices, List.foldlM_append,
      consider_parsed hbefore, select_parsed, Option.toList_none, List.nil_append, hselected, ok_bind,
      List.foldlM_cons, consider, hfailed]
    rfl

/-- A device of one block, with its alias. -/
def exampleContent (aliasName : String) : Content :=
  let bytes : Bytes := ⟨1, Nat.one_pos⟩
  let field (name content : String) (next : Content) : Content :=
    .element ⟨name, [.ok ⟨"unit", .ok "MiB"⟩]⟩ bytes (.text content bytes .nil) bytes next
  .element ⟨"memory", [.ok ⟨"model", .ok "virtio-mem"⟩]⟩ ⟨27, by decide⟩
    (.empty ⟨"alias", [.ok ⟨"name", .ok aliasName⟩]⟩ bytes
      (field "size" "2" (field "block" "2" (field "requested" "0" (field "current" "0" .nil)))))
    ⟨9, by decide⟩ .nil

/-- The same behind an element of the same name that closes itself. -/
def exampleDocument : Content :=
  .element ⟨"domain", []⟩ ⟨8, by decide⟩
    (.empty ⟨"memory", [.ok ⟨"model", .ok "virtio-mem"⟩]⟩ ⟨28, by decide⟩
      (exampleContent "ua-virtio-mem0")) ⟨9, by decide⟩ .nil

def exampleState : VirtioMemXmlState where
  aliasName := "ua-virtio-mem0"
  memory := ⟨2 * 2 ^ 20, 2 * 2 ^ 20, 0, 0⟩
  compatibility := ⟨.unknown, .unknown, .unknown⟩

theorem only_device_selected :
    parseVirtioMemXmlForAlias exampleDocument.tokens "ua-virtio-mem0" = .ok exampleState := by
  have hreadable : Readable exampleDocument :=
    ⟨fun h => absurd h (by decide), fun _ => ⟨fun _ => ⟨_, rfl⟩, fun h => absurd ⟨rfl, rfl⟩ h, trivial⟩,
      trivial⟩
  have hparsed : (devices exampleDocument).map parseVirtioMemXml = [exampleState].map .ok := by
    decide +kernel
  exact (((parseVirtioMemXmlForAlias_spec _ hreadable "ua-virtio-mem0").1 _ hparsed).1 _).mpr
    (by decide +kernel)

/-- A device that closes itself cannot be read on its own and does not fail the call. -/
theorem selfClosing_passed_over :
    parseVirtioMemXml
        [⟨.empty ⟨"memory", [.ok ⟨"model", .ok "virtio-mem"⟩]⟩, ⟨28, by decide⟩⟩] =
      .error (.missingField "alias") ∧
    parseVirtioMemXmlForAlias exampleDocument.tokens "ua-virtio-mem0" = .ok exampleState := by
  decide +kernel

end VirtioMem.Core
