/-!
# Well-known context keys

Steps that work together read and write shared entries under these names.
-/

namespace StepWeave.Context.Keys

/-- Id of the layer the pipeline runs for. -/
def layerId : String := "layerId"

/-- The layer itself, of a type chosen by the host. -/
def layer : String := "layer"

/-- The feature being processed. -/
def feature : String := "feature"

/-- The feature before an update; absent on creation. -/
def oldFeature : String := "oldFeature"

/-- Whether a save creates a new feature. -/
def isCreate : String := "isCreate"

/-- The data object behind the feature being saved. -/
def featureDataObject : String := "featureDataObject"

/-- The filter that restricts a search. -/
def filter : String := "filter"

/-- The coordinate reference system that the caller asked for. -/
def crs : String := "crs"

end StepWeave.Context.Keys
