import Entitlement.Registry.Administration

/-!
# The registry of a document archive

The permissions and models of documents, cabinets, workflows, indexes, tags and metadata, beside
those of the administration.
-/

namespace Entitlement.Registry

/-- Registers permissions of one space for a model of an application, and the two that guard its
entries. -/
def registerControlled (app name space : String) (permissions : List String) :
    Attempt Registry Unit := do
  let model ← .given (refused (Model.of? app name))
  let permissions ← .given (refused (permissions.mapM (Permission.of? space)))
  .advance (·.register model (permissions ++ [editEntries, viewEntries]))

/-- Registers permissions of one space for the documents. -/
def registerOnDocuments (space : String) (permissions : List String) : Attempt Registry Unit := do
  let model ← .given (refused (Model.of? "documents" "document"))
  let permissions ← .given (refused (permissions.mapM (Permission.of? space)))
  .advance (·.register model permissions)

/-- Declares that objects of a model inherit entries through some paths. -/
def inheritThrough (app name : String) (relations : List String) : Attempt Registry Unit := do
  let model ← .given (refused (Model.of? app name))
  for relation in relations do
    Attempt.advance (·.inherit model relation)

/-- Lets a model of an application stand for another one of it. -/
def declareProxy (app proxy base : String) : Attempt Registry Unit := do
  let proxy ← .given (refused (Model.of? app proxy))
  let base ← .given (refused (Model.of? app base))
  .advance (·.standFor proxy base)

def declareDocuments : Attempt Registry Unit := do
  declareFamily "documents" "Documents"
    [("document_view", "View documents"), ("document_edit", "Edit documents"),
      ("document_delete", "Delete documents"), ("document_download", "Download documents"),
      ("document_create", "Create documents"), ("document_type_view", "View document types"),
      ("document_type_edit", "Edit document types"),
      ("document_type_delete", "Delete document types")]
  registerControlled "documents" "documenttype" "documents"
    ["document_create", "document_type_delete", "document_type_edit", "document_type_view",
      "document_view", "document_edit", "document_delete", "document_download"]
  registerControlled "documents" "document" "documents"
    ["document_view", "document_edit", "document_delete", "document_download"]
  inheritThrough "documents" "document" ["document_type"]
  registerControlled "documents" "documentfile" "documents"
    ["document_view", "document_edit", "document_download"]
  inheritThrough "documents" "documentfile" ["document"]
  registerControlled "documents" "documentversion" "documents" ["document_view", "document_edit"]
  inheritThrough "documents" "documentversion" ["document"]
  registerControlled "documents" "documentversionpage" "documents" ["document_view"]
  inheritThrough "documents" "documentversionpage" ["document_version"]
  declareProxy "documents" "trasheddocument" "document"
  declareProxy "documents" "recentlyaccesseddocument" "document"

def declareCabinets : Attempt Registry Unit := do
  declareFamily "cabinets" "Cabinets"
    [("cabinet_view", "View cabinets"), ("cabinet_edit", "Edit cabinets"),
      ("cabinet_delete", "Delete cabinets"),
      ("cabinet_add_document", "Add documents to cabinets"),
      ("cabinet_remove_document", "Remove documents from cabinets")]
  registerControlled "cabinets" "cabinet" "cabinets"
    ["cabinet_view", "cabinet_edit", "cabinet_delete", "cabinet_add_document",
      "cabinet_remove_document"]
  inheritThrough "cabinets" "cabinet" ["parent"]
  registerOnDocuments "cabinets" ["cabinet_add_document", "cabinet_remove_document"]

def declareWorkflows : Attempt Registry Unit := do
  declareFamily "document_states" "Workflows"
    [("workflow_view", "View workflows"), ("workflow_edit", "Edit workflows"),
      ("workflow_delete", "Delete workflows"), ("workflow_transition", "Transition workflows")]
  registerControlled "document_states" "workflow" "document_states"
    ["workflow_view", "workflow_edit", "workflow_delete", "workflow_transition"]
  registerControlled "document_states" "workflowstate" "document_states"
    ["workflow_view", "workflow_edit"]
  inheritThrough "document_states" "workflowstate" ["workflow"]
  registerControlled "document_states" "workflowtransition" "document_states"
    ["workflow_transition"]
  inheritThrough "document_states" "workflowtransition" ["workflow"]
  registerControlled "document_states" "workflowinstance" "document_states"
    ["workflow_view", "workflow_transition"]
  inheritThrough "document_states" "workflowinstance" ["workflow", "document"]

def declareIndexes : Attempt Registry Unit := do
  declareFamily "document_indexing" "Indexing"
    [("index_view", "View indexes"), ("index_edit", "Edit indexes"),
      ("index_delete", "Delete indexes"), ("index_rebuild", "Rebuild indexes")]
  registerControlled "document_indexing" "indextemplate" "document_indexing"
    ["index_view", "index_edit", "index_delete", "index_rebuild"]
  registerControlled "document_indexing" "indextemplatenode" "document_indexing" ["index_view"]
  inheritThrough "document_indexing" "indextemplatenode" ["index"]
  registerControlled "document_indexing" "indexinstancenode" "document_indexing" ["index_view"]
  inheritThrough "document_indexing" "indexinstancenode" ["index_template_node.index"]

def declareTags : Attempt Registry Unit := do
  declareFamily "tags" "Tags"
    [("tag_view", "View tags"), ("tag_edit", "Edit tags"), ("tag_delete", "Delete tags"),
      ("tag_attach", "Attach tags"), ("tag_remove", "Remove tags")]
  registerControlled "tags" "tag" "tags"
    ["tag_view", "tag_edit", "tag_delete", "tag_attach", "tag_remove"]
  registerOnDocuments "tags" ["tag_attach", "tag_remove"]

def declareMetadata : Attempt Registry Unit := do
  declareFamily "metadata" "Metadata"
    [("metadata_type_view", "View metadata types"), ("metadata_type_edit", "Edit metadata types"),
      ("metadata_type_delete", "Delete metadata types"),
      ("metadata_document_view", "View metadata"), ("metadata_document_edit", "Edit metadata")]
  registerControlled "metadata" "metadatatype" "metadata"
    ["metadata_type_view", "metadata_type_edit", "metadata_type_delete", "metadata_document_view",
      "metadata_document_edit"]
  registerControlled "metadata" "documentmetadata" "metadata"
    ["metadata_document_view", "metadata_document_edit"]
  inheritThrough "metadata" "documentmetadata" ["document", "metadata_type"]
  registerOnDocuments "metadata" ["metadata_document_view", "metadata_document_edit"]

def declareArchive : Attempt Registry Unit := do
  declareAdministration
  declareDocuments
  declareCabinets
  declareWorkflows
  declareIndexes
  declareTags
  declareMetadata

def archive : Registry := (declareArchive ∅).2

end Entitlement.Registry
